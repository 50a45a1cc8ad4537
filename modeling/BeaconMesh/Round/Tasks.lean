import BeaconMesh.Round.Run

/-!
The tasks that a round begins. Every attempt to reach a peer, every wait for a retry and every
session is a task of its own, in a set that belongs to the half of the round that has begun it. A
half that is over drops its sets, and whatever is still in them is aborted. For attempts there are
handles besides, with which the callback of the round's signal aborts them.
-/

set_option autoImplicit false
set_option relaxedAutoImplicit false

namespace BeaconMesh.Round

/-- A task that was begun. It is held in the set of those whose end nobody has looked at, and
tracked as long as the callback of the signal has a handle for it. -/
structure Task (σ : Type) where
  state : σ
  held : Bool
  tracked : Bool
  aborted : Bool

namespace Task

variable {σ : Type} (ended : σ → Bool)

def stopped (t : Task σ) : Bool := ended t.state || t.aborted

/-- A task that has ended cannot be aborted any more. -/
def abort (t : Task σ) : Task σ := { t with aborted := t.aborted || !ended t.state }

end Task

/-- All tasks of a kind that were begun, in order. -/
abbrev Tasks (σ : Type) := List (Task σ)

namespace Tasks

variable {σ : Type} (ended : σ → Bool)

def states (ts : Tasks σ) : List σ := ts.map Task.state

def inSet (ts : Tasks σ) : List σ := (ts.filter Task.held).map Task.state

def spawn (ts : Tasks σ) (state : σ) : Tasks σ := ts ++ [⟨state, true, false, false⟩]

/-- Begins a task and keeps a handle for it; those for tasks that have ended are given away. -/
def track (ts : Tasks σ) (state : σ) : Tasks σ :=
  ts.map (fun t => { t with tracked := t.tracked && !ended t.state })
    ++ [⟨state, true, true, false⟩]

def notice (ts : Tasks σ) (f : σ → σ) : Tasks σ :=
  ts.map fun t => if t.held then { t with state := f t.state } else t

def join (ts : Tasks σ) (p : σ → Bool) : Tasks σ :=
  ts.map fun t => if t.held && ended t.state && p t.state then { t with held := false } else t

def drop (ts : Tasks σ) : Tasks σ :=
  ts.map fun t => if t.held then { t.abort ended with held := false } else t

def abortTracked (ts : Tasks σ) : Tasks σ :=
  ts.map fun t => if t.tracked then { t.abort ended with tracked := false } else t

end Tasks

structure Wait where
  timer : Nat
  uuid : String
  outcome : Option QuitSignal.TimerOutcome

namespace Wait

def ended (w : Wait) : Bool := w.outcome.isSome

def elapse (timer : Nat) (w : Wait) : Wait :=
  if w.timer = timer then { w with outcome := some .elapsed } else w

def retry (w : Wait) : Nat × String := (w.timer, w.uuid)

end Wait

def Dial.ended (d : Dial) : Bool := d.attempt.result?.isSome

abbrev Served := Nat × Session

def Served.ended (s : Served) : Bool := s.2.result?.isSome

/-- A round before anything is looked at. -/
def Run.opening (context : Context) (config : Config) (known : Roster) (round : Nat) (code : UInt8)
    (quit : QuitSignal Unit) : Run :=
  ⟨context, config, round, code, quit, .start known, .start, none, none, none⟩

/-- The tasks of a round. -/
structure Crew where
  dials : Tasks Dial
  waits : Tasks Wait
  sessions : Tasks Served

namespace Crew

def empty : Crew := ⟨[], [], []⟩

def dial (c : Crew) (client : ClientRole) (peer : PeerAvailability) : Crew :=
  if peer.available && !client.resolving.contains peer.uuid then
    { c with dials := c.dials.track Dial.ended ⟨peer, .fresh⟩ }
  else c

def dialAll (client : ClientRole) (c : Crew) : Roster → Crew
  | [] => c
  | peer :: peers => dialAll (client.dial peer) (c.dial client peer) peers

def dropClient (c : Crew) : Crew :=
  { c with dials := c.dials.drop Dial.ended, waits := c.waits.drop Wait.ended }

def dropServer (c : Crew) : Crew := { c with sessions := c.sessions.drop Served.ended }

/-- Raises the signal: each of its callbacks aborts the attempts. -/
def raise (c : Crew) (quit : QuitSignal Unit) : Crew :=
  quit.raise.1.foldl (fun c _ => { c with dials := c.dials.abortTracked Dial.ended }) c

/-- Ends the round while both halves go on, or while those of them do that are not over. -/
def fail (c : Crew) (quit : QuitSignal Unit) : Crew := c.dropClient.dropServer.raise quit

def settleClient (c : Crew) (r : Run) : Crew :=
  match r.result, r.succeeded, r.client.verdict? r.context.others with
  | none, none, some (.ok _) => c.dropClient
  | none, none, some (.error _) => c.fail r.quit
  | _, _, _ => c

def settleServer (c : Crew) (r : Run) : Crew :=
  match r.result, r.validated, r.server.verdict? r.context.others with
  | none, none, some _ => c.dropServer
  | _, _, _ => c

def settleBoth (c : Crew) (r : Run) : Crew :=
  match r.result, r.succeeded, r.validated with
  | none, some _, some _ => c.raise r.quit
  | _, _, _ => c

def settle (c : Crew) (r : Run) : Crew :=
  ((c.settleClient r).settleServer r.settleClient).settleBoth r.settleClient.settleServer

def start (context : Context) (config : Config) (known : Roster) (round : Nat) : Crew :=
  match code? round, Run.registerLimit .fresh config with
  | some code, .ok quit =>
    match quit.onRaise? () with
    | some quit =>
      (dialAll ⟨known, [], [], [], [], true⟩ empty known).settle
        (Run.opening context config known round code quit)
    | none => empty
  | _, _ => empty

/-- Looks at the end of an attempt. A failure begins a wait; a fatal one raises the signal before
the half that dials is over. -/
def conclude (c : Crew) (r : Run) (uuid : String) : Crew :=
  match r.client.result? uuid with
  | none => c
  | some result =>
    let c := { c with dials := c.dials.join Dial.ended fun d => d.peer.uuid == uuid }
    match result with
    | .ok _ => c
    | .error fault =>
      if fault.isFatal then ((c.raise r.quit).dropClient).dropServer
      else
        match r.quit.register? with
        | none => c.fail r.quit
        | some (timer, _) => { c with waits := c.waits.spawn ⟨timer, uuid, none⟩ }

def retry (c : Crew) (client : ClientRole) (timer : Nat) : Crew :=
  match client.retries.find? fun t => t.1 == timer with
  | none => c
  | some (_, uuid) =>
    let waits := c.waits.notice (Wait.elapse timer)
    let c := { c with waits := waits.join Wait.ended fun w => w.timer == timer }
    match client.known.last? uuid with
    | none => c
    | some peer => c.dial client peer

def take (c : Crew) (r : Run) : Event → Crew
  | .heard peer => if r.succeeded.isSome then c else c.dial r.client peer
  | .lagged _ => c
  | .streamEnded => c
  | .dialed uuid n =>
    if r.succeeded.isSome then c
    else
      { c with dials := c.dials.notice fun d =>
          if d.peer.uuid = uuid then
            { d with attempt := d.attempt.step r.context r.code r.config.exchangeTimeout n }
          else d }
  | .concluded uuid => if r.succeeded.isSome then c else c.conclude r uuid
  | .retried timer => if r.succeeded.isSome then c else c.retry r.client timer
  | .accepted =>
    if r.validated.isSome then c
    else { c with sessions := c.sessions.spawn (r.server.nextSession, .fresh) }
  | .served number n =>
    if r.validated.isSome then c
    else
      { c with sessions := c.sessions.notice fun s =>
          if s.1 = number then (s.1, s.2.step r.context r.code r.config.exchangeTimeout n) else s }
  | .left number =>
    if r.validated.isSome then c
    else { c with sessions := c.sessions.join Served.ended fun s => s.1 == number }
  | .limitReached =>
    match r.config.roundTimeout with
    | none => c
    | some _ => c.fail r.quit

/-- What becomes of the tasks by an event, after what the round was before it. -/
def step (c : Crew) (r : Run) (e : Event) : Crew :=
  if r.result.isSome then c else (c.take r e).settle (r.take e)

def steps (c : Crew) (r : Run) : List Event → Crew
  | [] => c
  | e :: es => (c.step r e).steps (r.step e) es

end Crew

end BeaconMesh.Round
