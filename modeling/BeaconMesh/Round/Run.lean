import BeaconMesh.Round.Roles

/-!
One round of one participant: both of its halves, and the signal that ends whatever the round has
begun. Events may come in any order. The round is over when both halves are, when the half that
dials gives up, or when its time is over; then the signal is raised and nothing is left of it but
its result and what is known of peers.
-/

set_option autoImplicit false
set_option relaxedAutoImplicit false

namespace BeaconMesh.Round

/-- What a completed round has shown. -/
structure Report where
  round : Nat
  succeeded : Uuid.Set
  validated : Uuid.Set
  deriving DecidableEq

inductive Event where
  | heard (peer : PeerAvailability)
  | lagged (missed : Nat)
  | streamEnded
  | dialed (uuid : String) (notice : Notice)
  | concluded (uuid : String)
  | retried (timer : Nat)
  | accepted
  | served (session : Nat) (notice : Notice)
  | left (session : Nat)
  | limitReached
  deriving DecidableEq

/-- A round that has begun. The callback of its signal gives up all attempts. -/
structure Run where
  context : Context
  config : Config
  round : Nat
  code : UInt8
  quit : QuitSignal Unit
  client : ClientRole
  server : ServerRole
  succeeded : Option Uuid.Set
  validated : Option Uuid.Set
  result : Option (Except Fault Report)

namespace Run

def finish (r : Run) (result : Except Fault Report) : Run :=
  { r with quit := r.quit.raise.2, client := r.client.clear, server := r.server.clear
           result := some result }

/-- Notes what the half that dials has come to, once it is over; its timers are dropped. -/
def settleClient (r : Run) : Run :=
  match r.result, r.succeeded, r.client.verdict? r.context.others with
  | none, none, some (.ok succeeded) =>
    { r with succeeded := some succeeded, client := r.client.clear
             quit := r.client.retries.foldl (fun quit t => quit.deregister t.1) r.quit }
  | none, none, some (.error fault) => r.finish (.error fault)
  | _, _, _ => r

def settleServer (r : Run) : Run :=
  match r.result, r.validated, r.server.verdict? r.context.others with
  | none, none, some validated => { r with validated := some validated, server := r.server.clear }
  | _, _, _ => r

def settleBoth (r : Run) : Run :=
  match r.result, r.succeeded, r.validated with
  | none, some succeeded, some validated => r.finish (.ok ⟨r.round, succeeded, validated⟩)
  | _, _, _ => r

/-- Notes what is over; the result of the round stays when there is one. -/
def settle (r : Run) : Run := r.settleClient.settleServer.settleBoth

def registerLimit (quit : QuitSignal Unit) (config : Config) : Except Fault (QuitSignal Unit) :=
  match config.roundTimeout with
  | none => .ok quit
  | some _ =>
    match quit.register? with
    | none => .error .alreadyRaised
    | some (_, quit) => .ok quit

def limitFault (limit : Duration) : QuitSignal.TimerOutcome → Fault
  | .elapsed => .timeout limit
  | .cancelled => .cancelled

/-- Begins a round with what is known of peers; its number has to have a code. -/
def start (context : Context) (config : Config) (known : Roster) (round : Nat) :
    Except Fault Run :=
  match code? round with
  | none => .error (.invalidRound round)
  | some code =>
    match registerLimit .fresh config with
    | .error fault => .error fault
    | .ok quit =>
      match quit.onRaise? () with
      | none => .error .alreadyRaised
      | some quit =>
        .ok (settle ⟨context, config, round, code, quit, .start known, .start, none, none, none⟩)

def onClient (r : Run) (f : ClientRole → QuitSignal Unit → ClientRole × QuitSignal Unit) : Run :=
  if r.succeeded.isSome then r
  else
    let (client, quit) := f r.client r.quit
    { r with client := client, quit := quit }

def onServer (r : Run) (f : ServerRole → ServerRole) : Run :=
  if r.validated.isSome then r else { r with server := f r.server }

/-- Looks at the end of an attempt; a fatal one ends the round. -/
def conclude (r : Run) (uuid : String) : Run :=
  if r.succeeded.isSome then r
  else
    match r.client.conclude r.quit uuid with
    | .ok (client, quit) => { r with client := client, quit := quit }
    | .error fault => r.finish (.error fault)

def take (r : Run) : Event → Run
  | .heard peer => r.onClient fun c q => (c.hear peer, q)
  | .lagged _ => r
  | .streamEnded => r.onClient fun c q => ({ c with streamOpen := false }, q)
  | .dialed uuid n =>
    r.onClient fun c q =>
      (c.notice uuid fun a => a.step r.context r.code r.config.exchangeTimeout n, q)
  | .concluded uuid => r.conclude uuid
  | .retried timer => r.onClient fun c q => c.retry q timer
  | .accepted => r.onServer .accept
  | .served session n =>
    r.onServer fun s => s.notice session fun x => x.step r.context r.code r.config.exchangeTimeout n
  | .left session => r.onServer fun s => s.conclude session
  | .limitReached =>
    match r.config.roundTimeout with
    | none => r
    | some limit => r.finish (.error (limitFault limit r.quit.outcome))

/-- What becomes of a round by an event; nothing more once it is over. -/
def step (r : Run) (e : Event) : Run := if r.result.isSome then r else (r.take e).settle

def steps (r : Run) (es : List Event) : Run := es.foldl step r

theorem step_of_isSome {r : Run} (h : r.result.isSome = true) (e : Event) : r.step e = r := by
  simp [step, h]

theorem steps_of_isSome {r : Run} (h : r.result.isSome = true) (es : List Event) :
    r.steps es = r := by
  induction es with
  | nil => rfl
  | cons e es ih => rw [steps, List.foldl_cons, step_of_isSome h, ← steps, ih]

end Run

end BeaconMesh.Round
