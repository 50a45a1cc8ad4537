import BeaconMesh.Quit.Basic
import BeaconMesh.Time.Basic

/-!
A quit signal in use: what its holders, their timers and those who wait for it do, in any order,
and what is noted of it. A callback may make requests of the signal that runs it, and while a call
that has raised the signal is under way anything else may happen.
-/

set_option autoImplicit false
set_option relaxedAutoImplicit false

namespace BeaconMesh.Quit

open QuitSignal (Timer Line Polled)

/-- What may be asked of the signal; a callback is handed in as what it does, and may keep a handle
of the signal. -/
inductive Request (deed : Type) where
  | raise
  | ask
  | onRaise (holds : Bool) (d : deed)
  | timeout (after : Duration)

/-- What a callback does: it makes requests of the signal, and goes on by how they are answered. -/
inductive Deed where
  | rest
  | request (r : Request Deed) (next : Bool → Deed)

def Deed.steps : Deed → Nat
  | .rest => 1
  | .request _ next => 1 + max (next true).steps (next false).steps

structure Callback where
  number : Nat
  holds : Bool
  deed : Deed

/-- What a call that has raised the signal has still to do. -/
inductive Task where
  | tell (timers : List Nat)
  | begin (callback : Callback)
  | go (callback : Nat) (deed : Deed)
  | announce
  | finish (caller : Option Nat)

def Task.steps : Task → Nat
  | .begin callback => 1 + callback.deed.steps
  | .go _ deed => deed.steps
  | _ => 1

def Task.stepsOfAll : List Task → Nat
  | [] => 0
  | task :: rest => task.steps + stepsOfAll rest

def Task.tells : Task → Bool
  | .tell _ => true
  | _ => false

/-- What happens to a signal; a request is made by a callback, or by somebody else. -/
inductive Moment where
  | raised
  | accepted (callback : Nat) (deed : Deed)
  | began (callback : Nat)
  | ended (callback : Nat)
  | registered (timer : Nat) (after : Duration) (time : Nat)
  | polled (timer : Nat) (said : Polled)
  | givenUp (timer : Nat)
  | answered (caller : Option Nat) (request : Request Deed) (answer : Bool)
  | released

inductive Event where
  | request (r : Request Deed)
  | clone
  | dropHandle
  | wait
  | leave
  | proceed (call : Nat)
  | poll (timer : Nat)
  | dropTimer (timer : Nat)
  | advance (ms : Nat)

/-- A signal and its past, the latest moment first. Handles that callbacks keep are not among
`handles`, nor timers that were given up among `timers`. `calls` are the calls that have raised the
signal; once it is announced, those who wait may leave. -/
structure History where
  signal : QuitSignal Callback
  handles : Nat
  now : Nat
  timers : List Timer
  callbacks : Nat
  calls : List (List Task)
  announced : Bool
  waiting : Nat
  moments : List Moment

namespace History

/-- A new signal, of which its owner has the only handle. -/
def fresh : History := ⟨.fresh, 1, 0, [], 0, [], false, 0, []⟩

def note (h : History) (m : Moment) : History := { h with moments := m :: h.moments }

def reachable (h : History) : Bool :=
  decide (0 < h.handles) || h.signal.callbacks.any Callback.holds

def telling (h : History) : Bool := h.calls.any fun tasks => tasks.any Task.tells

def busy (h : History) : Bool :=
  decide (0 < h.waiting) || h.calls.any fun tasks => !tasks.isEmpty

def timer? (h : History) (number : Nat) : Option Timer :=
  h.timers.find? fun t => t.number == number

def poll? (h : History) (number : Nat) : Option Polled :=
  (h.timer? number).map fun t => t.poll h.now

def withLine (h : History) (numbers : List Nat) (line : Line) : History :=
  { h with timers := h.timers.map fun t =>
      if numbers.contains t.number then { t with line := line } else t }

/-- The whole milliseconds that a timer needs. -/
def ticks (d : Duration) : Nat := (d.nanos + 999999) / 1000000

/-- Answers a request. If it raises the signal, that is what the call has to do first; the rest is
given as tasks, and the answer is noted when they are done. -/
def serve (h : History) (caller : Option Nat) : Request Deed → (Bool × List Task) × History
  | .raise =>
    if h.signal.raised then ((false, []), h.note (.answered caller .raise false))
    else
      let (callbacks, signal) := h.signal.raise
      ((true, .tell h.signal.timers :: callbacks.map .begin ++ [.announce, .finish caller]),
        { h with signal := signal }.note .raised)
  | .ask => ((h.signal.raised, []), h.note (.answered caller .ask h.signal.raised))
  | .onRaise holds deed =>
    match h.signal.onRaise? ⟨h.callbacks, holds, deed⟩ with
    | none => ((false, []), h.note (.answered caller (.onRaise holds deed) false))
    | some signal =>
      ((true, []), ({ h with signal := signal, callbacks := h.callbacks + 1 }.note
        (.accepted h.callbacks deed)).note (.answered caller (.onRaise holds deed) true))
  | .timeout after =>
    match h.signal.register? with
    | none => ((false, []), h.note (.answered caller (.timeout after) false))
    | some (number, signal) =>
      let timer : Timer := ⟨number, h.now + ticks after, .held⟩
      ((true, []), ({ h with signal := signal, timers := h.timers ++ [timer] }.note
        (.registered number after h.now)).note (.answered caller (.timeout after) true))

/-- Does the first task of a call; what it has to do instead is given. -/
def perform (h : History) : Task → List Task × History
  | .tell numbers => ([], h.withLine numbers .told)
  | .begin callback => ([.go callback.number callback.deed], h.note (.began callback.number))
  | .go number .rest => ([], h.note (.ended number))
  | .go number (.request r next) =>
    let ((answer, tasks), h) := h.serve (some number) r
    (tasks ++ [.go number (next answer)], h)
  | .announce => ([], { h with announced := true })
  | .finish caller => ([], h.note (.answered caller .raise true))

/-- If no handle is left, nobody will raise the signal, and its timers are told nothing. -/
def forsake (h : History) : History :=
  if h.reachable then h
  else
    { h.withLine h.signal.timers .cut with
      signal := { h.signal with timers := [], callbacks := [] } }

/-- What follows when somebody does something. Who has no handle cannot make a request, and the
last handle is not dropped while it is used. -/
def step (h : History) : Event → History
  | .request r =>
    if h.handles = 0 then h
    else
      let ((_, tasks), h) := h.serve none r
      if tasks.isEmpty then h else { h with calls := h.calls ++ [tasks] }
  | .clone => if h.handles = 0 then h else { h with handles := h.handles + 1 }
  | .dropHandle =>
    if h.handles = 0 ∨ h.handles = 1 ∧ h.busy = true then h
    else { h with handles := h.handles - 1 }.forsake
  | .wait => if h.handles = 0 then h else { h with waiting := h.waiting + 1 }
  | .leave =>
    if h.announced ∧ 0 < h.waiting then { h with waiting := h.waiting - 1 }.note .released else h
  | .proceed call =>
    match h.calls[call]? with
    | some (task :: rest) =>
      let (first, h) := h.perform task
      { h with calls := h.calls.set call (first ++ rest) }
    | _ => h
  | .poll number =>
    match h.timer? number with
    | none => h
    | some timer =>
      let timers := h.timers.map fun t => if t.number == number then t.polled else t
      { h with timers := timers }.note (.polled number (timer.poll h.now))
  | .dropTimer number =>
    match h.timer? number with
    | none => h
    | some _ =>
      let signal := if h.reachable then h.signal.deregister number else h.signal
      let timers := h.timers.filter fun t => t.number != number
      { h with signal := signal, timers := timers }.note (.givenUp number)
  | .advance ms => { h with now := h.now + ms }

def run (h : History) (events : List Event) : History := events.foldl step h

def conclude (h : History) : History :=
  h.run (List.replicate (Task.stepsOfAll h.calls.flatten) (.proceed 0))

end History

end BeaconMesh.Quit
