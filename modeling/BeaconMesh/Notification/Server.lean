import BeaconMesh.Notification.Published
import BeaconMesh.Notification.ScriptedTransport

/-!
The server side of notifications. An operation runs up to its next call to the transport and
goes on when the call has returned; operations never overlap.
-/

set_option autoImplicit false
set_option relaxedAutoImplicit false

namespace BeaconMesh.Notification

inductive Phase where
  | stopped
  | firstStart
  | running
  deriving DecidableEq, Repr

def Phase.name : Phase → String
  | .stopped => "Stopped"
  | .firstStart => "FirstStart"
  | .running => "Running"

structure Server where
  keys : KeyPair
  ttl : Duration
  published : Published
  phase : Phase
  serving : Bool

namespace Server

def standardTtl : Duration := .ofSecs 3600

def fresh (keys : KeyPair) (ttl : Duration) : Server := ⟨keys, ttl, .nothing, .stopped, false⟩

inductive Command where
  | start (recipients : List PublicKey)
  | startFromBytes (recipients : List Bytes)
  | stop

inductive Pending where
  | start (next : Published)
  | refresh
  | stop
  deriving DecidableEq

def Pending.call : Pending → TransportCall
  | .start _ => .start
  | .refresh => .refresh
  | .stop => .stop

inductive Progress where
  | done (result : Except Fault Unit)
  | waits (pending : Pending)

def Progress.callsLeft : Progress → Nat
  | .done _ => 0
  | .waits (.start _) => 2
  | .waits .refresh => 1
  | .waits .stop => 1

/-- Publishes, and advertises anew if anything was or is handed out. -/
def publish (s : Server) (next : Published) : Progress × Server :=
  let advertise := s.published.set.isSome || next.set.isSome
  let s := { s with published := next, phase := .running }
  if advertise then (.waits .refresh, s) else (.done (.ok ()), s)

/-- Begins to hand out what was made; the first time the transport has to begin serving before. -/
def prepare (s : Server) (next : Published) : Progress × Server :=
  if s.serving then s.publish next
  else (.waits (.start next), { s with phase := .firstStart })

/-- Begins to hand out beacons for recipients; they are made before anything is touched. -/
def start (s : Server) (recipients : List PublicKey) (now : Instant) (e : Entropy) :
    (Progress × Server) × Entropy :=
  if recipients.isEmpty then (s.prepare .nothing, e)
  else
    match Beacon.generate recipients s.keys s.ttl now e with
    | (.error fault, e) => ((.done (.error (.beacon fault)), s), e)
    | (.ok set, e) => (s.prepare ⟨some set⟩, e)

def begin (s : Server) (command : Command) (now : Instant) (e : Entropy) :
    (Progress × Server) × Entropy :=
  match command with
  | .start recipients => s.start recipients now e
  | .startFromBytes recipients =>
    match Beacon.keysOf recipients with
    | .error fault => ((.done (.error (.invalidArgument fault)), s), e)
    | .ok keys => s.start keys now e
  | .stop => ((.waits .stop, { s with published := .nothing, phase := .stopped }), e)

def resume (s : Server) (pending : Pending) (outcome : Except String Unit) : Progress × Server :=
  match pending, outcome with
  | .start _, .error cause => (.done (.error (.advertising cause)), { s with phase := .stopped })
  | .start next, .ok () => ({ s with serving := true } : Server).publish next
  | .refresh, .error cause => (.done (.error (.advertising cause)), s)
  | .refresh, .ok () => (.done (.ok ()), s)
  | .stop, .error cause => (.done (.error (.stop cause)), s)
  | .stop, .ok () => (.done (.ok ()), s)

/-- Runs an operation on to its end, each call with the next outcome; `none` unless there is one
outcome for each call. -/
def finish : Progress × Server → List (Except String Unit) → Option (Except Fault Unit × Server)
  | (.done result, s), [] => some (result, s)
  | (.done _, _), _ :: _ => none
  | (.waits _, _), [] => none
  | (.waits pending, s), outcome :: outcomes => finish (s.resume pending outcome) outcomes

def perform (s : Server) (command : Command) (now : Instant) (e : Entropy)
    (outcomes : List (Except String Unit)) : Option (Except Fault Unit × Server) :=
  finish (s.begin command now e).1 outcomes

theorem callsLeft_publish (s : Server) (next : Published) :
    (s.publish next).1.callsLeft ≤ 1 := by
  cases h : s.published.set.isSome || next.set.isSome <;> simp [publish, h, Progress.callsLeft]

theorem callsLeft_resume (s : Server) (pending : Pending) (outcome : Except String Unit) :
    (s.resume pending outcome).1.callsLeft < (Progress.waits pending).callsLeft := by
  cases pending with
  | start next =>
    cases outcome with
    | error cause => simp [resume, Progress.callsLeft]
    | ok u =>
      exact Nat.lt_of_le_of_lt (callsLeft_publish { s with serving := true } next) Nat.one_lt_two
  | refresh => cases outcome <;> simp [resume, Progress.callsLeft]
  | stop => cases outcome <;> simp [resume, Progress.callsLeft]

def summary (s : Server) : String :=
  "NotificationServer \x7b phase: " ++ s.phase.name ++ ", published: " ++ s.published.summary
    ++ " \x7d"

end Server

end BeaconMesh.Notification
