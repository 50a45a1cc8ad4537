import BeaconMesh.Queue.History

/-!
What an operation does once its turn has come. It is first called, by the worker itself, and what it
gives is then run apart from the worker; it may break down at either point. A queue in use goes on
for as long as no operation takes its worker down; the worker may also be taken away at any time,
and a ledger has on record what came to its end before that.
-/

set_option autoImplicit false
set_option relaxedAutoImplicit false

namespace BeaconMesh

variable {job result : Type}

inductive Queue.Conduct (result : Type) where
  | breaksWhenCalled
  | breaksWhenRun
  | ends (r : result)
  deriving DecidableEq

/-- Ends the running operation, which has done this. What breaks down when it is called takes the
worker with it. -/
def OperationQueue.conclude (q : OperationQueue job result) :
    Queue.Conduct result → OperationQueue job result
  | .breaksWhenCalled => q.collapse
  | .breaksWhenRun => q.settle (.error .panicked)
  | .ends r => q.settle (.ok r)

namespace Queue

def Conduct.answer : Conduct result → Except QueueFault result
  | .breaksWhenCalled => .error .closed
  | .breaksWhenRun => .error .panicked
  | .ends r => .ok r

/-- What can happen to a queue in use, if nobody takes its worker away. -/
inductive Signal (result : Type) where
  | submit (c : Conduct result)
  | drop (ticket : Nat)
  | start
  | proceed

namespace History

/-- What follows when something happens; an operation does what it is meant to do. -/
def take (h : History (Conduct result) result) : Signal result → History (Conduct result) result
  | .submit c => h.step (.submit c)
  | .drop ticket => h.step (.drop ticket)
  | .start => h.step .start
  | .proceed =>
    match h.queue.running with
    | none => h
    | some (_, c) => h.close (h.queue.conclude c)

def follow (h : History (Conduct result) result) (signals : List (Signal result)) :
    History (Conduct result) result := signals.foldl take h

end History

/-- What can happen to a queue in use. -/
inductive Occurrence (result : Type) where
  | usual (s : Signal result)
  | shutdown

def Occurrence.submission? : Occurrence result → Option (Conduct result)
  | .usual (.submit c) => some c
  | _ => none

/-- A queue with its past, and the operations that came to the end of what they do, in order. -/
structure Ledger (result : Type) where
  history : History (Conduct result) result
  ended : List (Nat × Conduct result)

namespace Ledger

def ofCapacity (capacity : Nat) : Ledger result := ⟨.ofCapacity capacity, []⟩

/-- What the owner of an operation that was let in is to be told: what it did once it has come to
its end, that the queue is closed if the worker has gone before, and nothing until then. -/
def due (l : Ledger result) (op : Nat × Conduct result) : Option (Except QueueFault result) :=
  if op.1 ∈ l.ended.map Prod.fst then some op.2.answer
  else if l.history.queue.isOpen then none
  else some (.error .closed)

def step (l : Ledger result) : Occurrence result → Ledger result
  | .usual .proceed => ⟨l.history.take .proceed, l.ended ++ l.history.queue.running.toList⟩
  | .usual s => ⟨l.history.take s, l.ended⟩
  | .shutdown => ⟨l.history.step .collapse, l.ended⟩

def run (l : Ledger result) (occurrences : List (Occurrence result)) : Ledger result :=
  occurrences.foldl step l

end Ledger

end Queue

end BeaconMesh
