import BeaconMesh.Notification.EventLoop

/-!
An event loop in use: it hears of peers and of the ends of fetches, in any order, and what follows
is noted. A fetch that is abandoned may have ended just before; what it gave is heard all the same.
-/

set_option autoImplicit false
set_option relaxedAutoImplicit false

namespace BeaconMesh.Notification

def Order.fetch? : Order → Option Fetch
  | .begin fetch => some fetch
  | .abandon _ => none

namespace EventLoop

/-- How a fetch ends. What it gave is read at once, at the time that stands beside it. -/
inductive FetchEnd where
  | gave (given : Except Fault (Option Bytes)) (now : Instant)
  | cancelled
  | brokeDown

/-- A fetch whose end has not been heard of. -/
structure Task where
  fetch : Fetch
  abandoned : Bool

inductive Signal where
  | heard (peer : PeerAvailability)
  | lagged (missed : Nat)
  | ended (number : Nat) (how : FetchEnd)

inductive Cause where
  | heard (peer : PeerAvailability)
  | lagged (missed : Nat)
  | ended (fetch : Fetch) (how : FetchEnd)

structure Moment where
  cause : Cause
  begun : Option Fetch
  reported : Option Discovery

/-- An event loop and its past, the latest moment first. -/
structure History where
  keys : KeyPair
  loop : EventLoop
  tasks : List Task
  moments : List Moment

namespace History

def fresh (keys : KeyPair) (book : List KeyHash) : History :=
  ⟨keys, .fresh book keys.hash.toHex, [], []⟩

def follow (tasks : List Task) : Option Order → List Task
  | none => tasks
  | some (.begin fetch) => tasks ++ [⟨fetch, false⟩]
  | some (.abandon number) =>
    tasks.map fun t => if t.fetch.number = number then { t with abandoned := true } else t

def note (h : History) (cause : Cause) (tasks : List Task) (reported : Option Discovery)
    (next : Option Order × EventLoop) : History :=
  ⟨h.keys, next.2, follow tasks next.1,
    ⟨cause, next.1.bind Order.fetch?, reported⟩ :: h.moments⟩

/-- What follows when a fetch ends. One that breaks down says nothing, and none is cancelled unless
it was abandoned. -/
def finish (h : History) (task : Task) (how : FetchEnd) : History :=
  let tasks := h.tasks.filter fun t => t.fetch.number != task.fetch.number
  let cause : Cause := .ended task.fetch how
  match how with
  | .gave given now =>
    let ((found, order), loop) := h.loop.onFetched task.fetch (.read h.keys now given)
    h.note cause tasks found (order, loop)
  | .cancelled => if task.abandoned then h.note cause tasks none (none, h.loop) else h
  | .brokeDown => h.note cause tasks none (none, h.loop)

def step (h : History) : Signal → History
  | .heard peer => h.note (.heard peer) h.tasks none (h.loop.onAvailability peer)
  | .lagged missed => h.note (.lagged missed) h.tasks none (none, h.loop)
  | .ended number how =>
    match h.tasks.find? fun t => t.fetch.number == number with
    | none => h
    | some task => h.finish task how

def run (h : History) (signals : List Signal) : History := signals.foldl step h

end History

end EventLoop

end BeaconMesh.Notification
