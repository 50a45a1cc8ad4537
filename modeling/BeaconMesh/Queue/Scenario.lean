import BeaconMesh.Queue.Conduct

/-!
A scripted use of an operation queue: operations that end at once, after some time, when they
are let go, or by breaking down, on a clock that counts milliseconds.
-/

set_option autoImplicit false
set_option relaxedAutoImplicit false

namespace BeaconMesh.Queue

variable {result : Type}

inductive Script (result : Type) where
  | ends (r : result)
  | sleeps (ms : Nat) (r : result)
  | gated (r : result)
  | panics
  | panicsEarly

structure Operation (result : Type) where
  name : String
  script : Script result

inductive Mark where
  | started (name : String)
  | ended (name : String)
  deriving DecidableEq, Repr

structure Bench (result : Type) where
  queue : OperationQueue (Operation result) result
  now : Nat
  since : Nat
  released : List String
  held : List (String × Nat)
  marks : List Mark

namespace Bench

def ofCapacity (capacity : Nat) : Bench result := ⟨.ofCapacity capacity, 0, 0, [], [], []⟩

def complete (b : Bench result) (name : String) (r : result) : Bench result :=
  { b with queue := b.queue.conclude (.ends r), marks := .ended name :: b.marks }

def proceed? (b : Bench result) : Option (Bench result) :=
  match b.queue.running with
  | none => none
  | some (_, op) =>
    match op.script with
    | .ends r => some (b.complete op.name r)
    | .sleeps ms r => if b.since + ms ≤ b.now then some (b.complete op.name r) else none
    | .gated r => if b.released.contains op.name then some (b.complete op.name r) else none
    | .panics => some { b with queue := b.queue.conclude .breaksWhenRun }
    | .panicsEarly => some { b with queue := b.queue.conclude .breaksWhenCalled }

def start? (b : Bench result) : Option (Bench result) :=
  match b.queue.start? with
  | none => none
  | some ((_, op), queue) =>
    some { b with queue := queue, since := b.now, marks := .started op.name :: b.marks }

def settleWithin : Nat → Bench result → Bench result
  | 0, b => b
  | steps + 1, b =>
    match b.proceed?.or b.start? with
    | none => b
    | some b => settleWithin steps b

def settle (b : Bench result) : Bench result :=
  settleWithin (2 * b.queue.waiting.length + 2) b

def advance : Nat → Bench result → Bench result
  | 0, b => b.settle
  | ms + 1, b => advance ms { b.settle with now := b.now + 1 }

def enqueue (b : Bench result) (op : Operation result) : Bench result :=
  let (ticket, queue) := b.queue.submit op
  { b with queue := queue, held := (op.name, ticket) :: b.held }

def drop (b : Bench result) (name : String) : Bench result :=
  { b with held := b.held.filter fun h => h.1 != name }

def release (b : Bench result) (name : String) : Bench result :=
  { b with released := name :: b.released }

def shutdown (b : Bench result) : Bench result := { b with queue := b.queue.collapse }

/-- What the holder of a ticket sees. -/
inductive Sight (result : Type) where
  | gone
  | pending
  | answered (r : Except QueueFault result)

def check (b : Bench result) (name : String) : Sight result × Bench result :=
  let b := b.settle
  match b.held.find? fun h => h.1 == name with
  | none => (.gone, b)
  | some (_, ticket) =>
    match b.queue.answer? ticket with
    | none => (.pending, b)
    | some r => (.answered r, b.drop name)

def read (b : Bench result) : List Mark × Bench result := (b.marks.reverse, { b with marks := [] })

end Bench

end BeaconMesh.Queue
