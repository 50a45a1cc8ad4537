import BeaconMesh.Quit.History

/-!
A scripted use of a quit signal: its owner, tasks that wait for it and callbacks that use it,
on a clock that counts milliseconds.
-/

set_option autoImplicit false
set_option relaxedAutoImplicit false

namespace BeaconMesh.Quit

inductive Action where
  | nothing
  | raise
  | ask
  | onRaise
  | timeout
  deriving DecidableEq, Repr

/-- What the callback does; one that does anything keeps a handle. -/
def Action.deed : Action → Deed
  | .nothing => .rest
  | .raise => .request .raise fun _ => .rest
  | .ask => .request .ask fun _ => .rest
  | .onRaise => .request (.onRaise false .rest) fun _ => .rest
  | .timeout => .request (.timeout (.ofSecs 1)) fun _ => .rest

inductive Finding where
  | fired
  | said (b : Bool)
  | registered (b : Bool)
  deriving DecidableEq, Repr

def Finding.ofAnswer {deed : Type} (answer : Bool) : Request deed → Finding
  | .raise => .said answer
  | .ask => .said answer
  | .onRaise _ _ => .registered answer
  | .timeout _ => .registered answer

structure NamedAction where
  name : String
  action : Action
  deriving DecidableEq, Repr

structure Bench where
  history : History
  owned : Bool
  timers : List (String × Nat)
  waits : List String
  callbacks : List NamedAction

namespace Bench

def fresh : Bench := ⟨.fresh, true, [], [], []⟩

def signal (b : Bench) : QuitSignal Callback := b.history.signal

def settle (b : Bench) : Bench :=
  let leaving := if b.history.announced then b.history.waiting else 0
  { b with history :=
      b.history.run (List.flatten (List.replicate leaving [.leave, .dropHandle])) }

def request (b : Bench) (r : Request Deed) : Bench :=
  { b with history := (b.history.step (.request r)).conclude }.settle

def timeout (b : Bench) (name : String) (after : Duration) : Option QuitSignal.Timer × Bench :=
  let next := b.signal.nextTimer
  let b := b.request (.timeout after)
  match b.history.timer? next with
  | none => (none, b)
  | some timer => (some timer, { b with timers := (name, next) :: b.timers })

def timer? (b : Bench) (name : String) : Option Nat :=
  (b.timers.find? fun t => t.1 == name).map Prod.snd

def poll (b : Bench) (name : String) : Option (Option QuitSignal.TimerOutcome) :=
  ((b.timer? name).bind b.history.poll?).map fun
    | .ended outcome => some outcome
    | _ => none

def dropTimer (b : Bench) (name : String) : Bool × Bench :=
  match b.timer? name with
  | none => (false, b)
  | some number =>
    (true, { b with
      history := b.history.step (.dropTimer number)
      timers := b.timers.filter fun t => t.1 != name })

def onRaise (b : Bench) (c : NamedAction) : Bool × Bench :=
  let accepted := b.history.callbacks
  let b := b.request (.onRaise (c.action != .nothing) c.action.deed)
  if b.history.callbacks = accepted then (false, b)
  else (true, { b with callbacks := b.callbacks ++ [c] })

def finding? (b : Bench) : Moment → Option (String × Finding)
  | .began number =>
    match b.callbacks[number]? with
    | some ⟨name, .nothing⟩ => some (name, .fired)
    | _ => none
  | .answered (some number) r answer =>
    b.callbacks[number]?.map fun c => (c.name, Finding.ofAnswer answer r)
  | _ => none

def raiseAnswer? : Moment → Option Bool
  | .answered none .raise answer => some answer
  | _ => none

def raise (b : Bench) : (Bool × List (String × Finding)) × Bench :=
  let past := b.history.moments.length
  let b' := b.request .raise
  let moments := (b'.history.moments.take (b'.history.moments.length - past)).reverse
  (((moments.findSome? raiseAnswer?).getD false, moments.filterMap b.finding?), b')

def wait (b : Bench) (name : String) : Bench :=
  { b with history := b.history.run [.clone, .wait], waits := name :: b.waits }.settle

def waited (b : Bench) (name : String) : Option Bool :=
  if b.waits.contains name then some (b.history.waiting == 0) else none

def advance (b : Bench) (ms : Nat) : Bench := { b with history := b.history.step (.advance ms) }

def dropSignal (b : Bench) : Bench :=
  { b with history := b.history.step .dropHandle, owned := false }

end Bench

end BeaconMesh.Quit
