/-!
A queue that runs one operation at a time, in the order in which they were submitted. Whoever
submits an operation gets a ticket, under which its result is found once it has settled.
-/

set_option autoImplicit false
set_option relaxedAutoImplicit false

namespace BeaconMesh

/-- What the queue itself reports instead of an operation's result. -/
inductive QueueFault where
  | full
  | closed
  | panicked
  deriving DecidableEq, Repr

def QueueFault.message : QueueFault → String
  | .full => "operation queue is full"
  | .closed => "operation queue is closed"
  | .panicked => "queued operation panicked"

/-- A queue of operations, each of the form `job`, whose results are of the form `result`. -/
structure OperationQueue (job result : Type) where
  capacity : Nat
  nextTicket : Nat
  waiting : List (Nat × job)
  running : Option (Nat × job)
  isOpen : Bool
  answers : List (Nat × Except QueueFault result)

namespace OperationQueue

variable {job result : Type}

def standardCapacity : Nat := 64

/-- An empty queue; at least one operation may wait. -/
def ofCapacity (capacity : Nat) : OperationQueue job result :=
  ⟨max capacity 1, 0, [], none, true, []⟩

def answer (q : OperationQueue job result) (ticket : Nat) (r : Except QueueFault result) :
    OperationQueue job result :=
  { q with answers := (ticket, r) :: q.answers }

def answer? (q : OperationQueue job result) (ticket : Nat) : Option (Except QueueFault result) :=
  (q.answers.find? fun a => a.1 == ticket).map Prod.snd

def admits (q : OperationQueue job result) : Bool :=
  q.isOpen && decide (q.waiting.length < q.capacity)

/-- Hands in an operation and gives its ticket; one that is not let in has its answer at once. -/
def submit (q : OperationQueue job result) (j : job) : Nat × OperationQueue job result :=
  let ticket := q.nextTicket
  let q := { q with nextTicket := ticket + 1 }
  if !q.isOpen then (ticket, q.answer ticket (.error .closed))
  else if q.capacity ≤ q.waiting.length then (ticket, q.answer ticket (.error .full))
  else (ticket, { q with waiting := q.waiting ++ [(ticket, j)] })

def start? (q : OperationQueue job result) : Option ((Nat × job) × OperationQueue job result) :=
  match q.running, q.waiting with
  | none, next :: rest => some (next, { q with running := some next, waiting := rest })
  | _, _ => none

/-- Ends the running operation with its result, or with the note that it broke down. -/
def settle (q : OperationQueue job result) (r : Except QueueFault result) :
    OperationQueue job result :=
  match q.running with
  | none => q
  | some (ticket, _) => { q.answer ticket r with running := none }

/-- Ends for good: whatever runs or waits is answered by `closed`. -/
def collapse (q : OperationQueue job result) : OperationQueue job result :=
  let lost := (q.running.toList ++ q.waiting).map fun op => (op.1, Except.error QueueFault.closed)
  { q with waiting := [], running := none, isOpen := false, answers := lost ++ q.answers }

end OperationQueue

end BeaconMesh
