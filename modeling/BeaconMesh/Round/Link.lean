import BeaconMesh.Round.Context

/-!
The two ends of a connection on which one request and one response are exchanged. The end that
dialed writes its request and reads the response; the end that accepted reads a request, writes
its response, and counts the other end only once that has hung up. Each end knows what it has
written; when it is done, the connection is closed on its side.
-/

set_option autoImplicit false
set_option relaxedAutoImplicit false

namespace BeaconMesh.Round

/-- What an end of a connection notices. -/
inductive Notice where
  | connected
  | arrived (bytes : Bytes)
  | hungUp
  | failed (cause : String)
  | tooLate
  deriving DecidableEq

def endedEarly : String := "early eof"

namespace Attempt

inductive Stage where
  | connecting
  | awaiting (received : Bytes)
  | done (result : Except Fault Uuid)

end Attempt

/-- The end that dialed. -/
structure Attempt where
  stage : Attempt.Stage
  written : Bytes

namespace Attempt

def fresh : Attempt := ⟨.connecting, []⟩

def verdict (c : Context) (bytes : Bytes) : Except Fault Uuid :=
  match Message.decode? c.payload.length bytes with
  | none => .error (.wrongLength c.messageLength bytes.length)
  | some response => (c.interpret response).mapError .objection

/-- Takes in more of the response; what follows the response is not read. -/
def receive (c : Context) (received more : Bytes) : Stage :=
  let received := received ++ more
  if received.length < c.messageLength then .awaiting received
  else .done (verdict c (received.take c.messageLength))

/-- What becomes of an attempt in the round with a code when something is noticed. -/
def step (c : Context) (code : UInt8) (limit : Duration) (a : Attempt) (n : Notice) : Attempt :=
  match a.stage, n with
  | .done _, _ => a
  | _, .failed cause => { a with stage := .done (.error (.connection cause)) }
  | _, .tooLate => { a with stage := .done (.error (.timeout limit)) }
  | .connecting, .connected => ⟨.awaiting [], a.written ++ (c.request code).encode⟩
  | .connecting, _ => a
  | .awaiting received, .arrived more => { a with stage := receive c received more }
  | .awaiting _, .hungUp => { a with stage := .done (.error (.connection endedEarly)) }
  | .awaiting _, .connected => a

def result? (a : Attempt) : Option (Except Fault Uuid) :=
  match a.stage with
  | .done result => some result
  | _ => none

end Attempt

namespace Session

/-- How far a session has come. It lingers when it has reported success to a participant who has not
hung up yet, and is done with the name of somebody to count, with nobody to count, or in vain. -/
inductive Stage where
  | reading (received : Bytes)
  | lingering (sender : Uuid)
  | done (result : Except Fault (Option Uuid))

end Session

/-- The end that accepted. It writes once and nothing more after that. -/
structure Session where
  stage : Session.Stage
  written : Bytes

namespace Session

def fresh : Session := ⟨.reading [], []⟩

def answer (c : Context) (code : UInt8) (s : Session) (bytes : Bytes) : Session :=
  match Message.decode? c.payload.length bytes with
  | none => { s with stage := .done (.error (.wrongLength c.messageLength bytes.length)) }
  | some request =>
    let outcome := c.judge request code
    ⟨if outcome = .success then .lingering request.sender else .done (.ok none),
      s.written ++ (c.response outcome).encode⟩

/-- Takes in more of the request; what follows the request is not looked at. -/
def receive (c : Context) (code : UInt8) (s : Session) (received more : Bytes) : Session :=
  let received := received ++ more
  if received.length < c.messageLength then { s with stage := .reading received }
  else s.answer c code (received.take c.messageLength)

def step (c : Context) (code : UInt8) (limit : Duration) (s : Session) (n : Notice) : Session :=
  match s.stage, n with
  | .done _, _ => s
  | _, .failed cause => { s with stage := .done (.error (.connection cause)) }
  | _, .tooLate => { s with stage := .done (.error (.timeout limit)) }
  | _, .connected => s
  | .reading received, .arrived more => s.receive c code received more
  | .reading _, .hungUp => { s with stage := .done (.error (.connection endedEarly)) }
  | .lingering _, .arrived _ => s
  | .lingering sender, .hungUp => { s with stage := .done (.ok (some sender)) }

def result? (s : Session) : Option (Except Fault (Option Uuid)) :=
  match s.stage with
  | .done result => some result
  | _ => none

end Session

end BeaconMesh.Round
