import BeaconMesh.Text.Numeral

/-!
A signal that is raised at most once. Timers and callbacks are registered with it; raising it
ends all timers early and runs every callback once, and nothing can be registered any more.
-/

set_option autoImplicit false
set_option relaxedAutoImplicit false

namespace BeaconMesh

/-- A signal with callbacks of the form `callback`. -/
structure QuitSignal (callback : Type) where
  raised : Bool
  nextTimer : Nat
  timers : List Nat
  callbacks : List callback

namespace QuitSignal

variable {callback : Type}

def fresh : QuitSignal callback := ⟨false, 0, [], []⟩

instance : Inhabited (QuitSignal callback) := ⟨fresh⟩

def alreadyRaised : String := "quit signal already raised"

def raise (s : QuitSignal callback) : List callback × QuitSignal callback :=
  if s.raised then ([], s)
  else (s.callbacks, { s with raised := true, timers := [], callbacks := [] })

/-- Registers a timer and gives its number, unless the signal has been raised. -/
def register? (s : QuitSignal callback) : Option (Nat × QuitSignal callback) :=
  if s.raised then none
  else some (s.nextTimer,
    { s with nextTimer := s.nextTimer + 1, timers := s.timers ++ [s.nextTimer] })

def deregister (s : QuitSignal callback) (timer : Nat) : QuitSignal callback :=
  { s with timers := s.timers.filter fun t => t != timer }

def onRaise? (s : QuitSignal callback) (c : callback) : Option (QuitSignal callback) :=
  if s.raised then none else some { s with callbacks := s.callbacks ++ [c] }

def summary (s : QuitSignal callback) : String :=
  "QuitSignal \x7b raised: " ++ (if s.raised then "true" else "false") ++ ", timers: "
    ++ Text.decimal s.timers.length ++ ", callbacks: " ++ Text.decimal s.callbacks.length ++ " \x7d"

/-- How a timer ends. It is cancelled if the signal was raised, and also if nobody is left who could
raise it. -/
inductive TimerOutcome where
  | elapsed
  | cancelled
  deriving DecidableEq, Repr

/-- What has become of the line over which the signal tells a timer that it was raised: the signal
holds its end, has told the timer, or is gone and has told it nothing; or the timer has learnt that
it is cancelled. -/
inductive Line where
  | held
  | told
  | cut
  | heard
  deriving DecidableEq, Repr, Inhabited

structure Timer where
  number : Nat
  deadline : Nat
  line : Line
  deriving DecidableEq, Repr, Inhabited

def outcome (s : QuitSignal callback) : TimerOutcome := if s.raised then .cancelled else .elapsed

/-- What a timer says when it is asked whether it has ended. One that has said that it is cancelled
must not be asked again. -/
inductive Polled where
  | pending
  | ended (outcome : TimerOutcome)
  | breaksDown
  deriving DecidableEq, Repr

/-- What a timer says at a time; being cancelled counts first. -/
def Timer.poll (t : Timer) (now : Nat) : Polled :=
  match t.line with
  | .heard => .breaksDown
  | .told => .ended .cancelled
  | .cut => .ended .cancelled
  | .held => if t.deadline ≤ now then .ended .elapsed else .pending

def Timer.polled (t : Timer) : Timer :=
  match t.line with
  | .held => t
  | _ => { t with line := .heard }

def Timer.summary (t : Timer) : String := "Timeout \x7b id: " ++ Text.decimal t.number ++ " \x7d"

end QuitSignal

end BeaconMesh
