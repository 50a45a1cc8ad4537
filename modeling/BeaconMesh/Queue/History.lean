import BeaconMesh.Queue.Basic

/-!
What can happen to a queue in use, in any order, and what is noted of it: which operations were let
in, and when each of them started and settled.
-/

set_option autoImplicit false
set_option relaxedAutoImplicit false

namespace BeaconMesh.Queue

variable {job result : Type}

/-- What can happen to a queue in use. -/
inductive Event (job result : Type) where
  | submit (j : job)
  | drop (ticket : Nat)
  | start
  | settle (r : Except QueueFault result)
  | collapse

def Event.job? : Event job result → Option job
  | .submit j => some j
  | _ => none

def Event.isDrop : Event job result → Bool
  | .drop _ => true
  | _ => false

/-- A turn in the life of an operation, which is known by its ticket. -/
inductive Moment (job : Type) where
  | started (op : Nat × job)
  | settled (op : Nat × job)

def Moment.started? : Moment job → Option (Nat × job)
  | .started op => some op
  | .settled _ => none

def Moment.settled? : Moment job → Option (Nat × job)
  | .started _ => none
  | .settled op => some op

/-- A queue and its past: the tickets that were not given up, the operations that were let in and
what has happened to them, each in order. -/
structure History (job result : Type) where
  queue : OperationQueue job result
  held : List Nat
  accepted : List (Nat × job)
  moments : List (Moment job)

namespace History

def ofCapacity (capacity : Nat) : History job result := ⟨.ofCapacity capacity, [], [], []⟩

def started (h : History job result) : List (Nat × job) := h.moments.filterMap Moment.started?

def settled (h : History job result) : List (Nat × job) := h.moments.filterMap Moment.settled?

/-- What the holder of a ticket sees. -/
def answer? (h : History job result) (ticket : Nat) : Option (Except QueueFault result) :=
  if h.held.contains ticket then h.queue.answer? ticket else none

def close (h : History job result) (queue : OperationQueue job result) : History job result :=
  { h with queue := queue, moments := h.moments ++ h.queue.running.toList.map Moment.settled }

def step (h : History job result) : Event job result → History job result
  | .submit j =>
    let (ticket, queue) := h.queue.submit j
    { h with
      queue := queue
      held := ticket :: h.held
      accepted := if h.queue.admits then h.accepted ++ [(ticket, j)] else h.accepted }
  | .drop ticket => { h with held := h.held.filter fun t => t != ticket }
  | .start =>
    match h.queue.start? with
    | none => h
    | some (op, queue) => { h with queue := queue, moments := h.moments ++ [.started op] }
  | .settle r => h.close (h.queue.settle r)
  | .collapse => h.close h.queue.collapse

def run (h : History job result) (events : List (Event job result)) : History job result :=
  events.foldl step h

end History

end BeaconMesh.Queue
