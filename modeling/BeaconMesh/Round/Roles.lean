import BeaconMesh.Peer.Availability
import BeaconMesh.Quit.Basic
import BeaconMesh.Round.Config
import BeaconMesh.Round.Link

/-!
The two halves of a round. The one that dials dials every peer that it hears can be reached, at most
once at a time, and after a failure once more when some time has passed, until every other
participant has answered with success. The one that is dialed answers every request and counts those
who have seen that they succeeded, until these are all other participants.
-/

set_option autoImplicit false
set_option relaxedAutoImplicit false

namespace BeaconMesh.Round

/-- What is known of peers: the last event about each, by its uuid. -/
abbrev Roster := List PeerAvailability

namespace Roster

def last? (r : Roster) (uuid : String) : Option PeerAvailability := r.find? fun p => p.uuid == uuid

def note (r : Roster) (peer : PeerAvailability) : Roster :=
  peer :: r.filter fun p => p.uuid != peer.uuid

@[simp] theorem last?_note_self (r : Roster) (peer : PeerAvailability) :
    (r.note peer).last? peer.uuid = some peer := by
  simp [note, last?]

theorem last?_note_of_ne (r : Roster) (peer : PeerAvailability) {uuid : String}
    (h : peer.uuid ≠ uuid) : (r.note peer).last? uuid = r.last? uuid := by
  have hp : ∀ p : PeerAvailability,
      decide ((p.uuid != peer.uuid) = true ∧ (p.uuid == uuid) = true) = (p.uuid == uuid) := by
    intro p
    by_cases hu : p.uuid = uuid
    · simp [hu, Ne.symm h]
    · simp [hu]
  have hn : (peer.uuid == uuid) = false := by simpa using h
  simp only [note, last?, List.find?_cons, hn, List.find?_filter, hp]

end Roster

structure Dial where
  peer : PeerAvailability
  attempt : Attempt

/-- The half of a round that dials. `resolving` are the uuids of the peers with an attempt under way
or a success. -/
structure ClientRole where
  known : Roster
  resolving : List String
  succeeded : Uuid.Set
  attempts : List Dial
  retries : List (Nat × String)
  streamOpen : Bool

namespace ClientRole

/-- Dials a peer, unless it is gone, is being dialed, or has answered with success. -/
def dial (r : ClientRole) (peer : PeerAvailability) : ClientRole :=
  if peer.available && !r.resolving.contains peer.uuid then
    { r with resolving := peer.uuid :: r.resolving, attempts := r.attempts ++ [⟨peer, .fresh⟩] }
  else r

/-- The beginning, with the peers known from earlier rounds: they are dialed at once. -/
def start (known : Roster) : ClientRole :=
  known.foldl dial ⟨known, [], [], [], [], true⟩

def hear (r : ClientRole) (peer : PeerAvailability) : ClientRole :=
  { r.dial peer with known := r.known.note peer }

def notice (r : ClientRole) (uuid : String) (f : Attempt → Attempt) : ClientRole :=
  { r with attempts := r.attempts.map fun d =>
      if d.peer.uuid = uuid then { d with attempt := f d.attempt } else d }

def result? (r : ClientRole) (uuid : String) : Option (Except Fault Uuid) := do
  (← r.attempts.find? fun d => d.peer.uuid == uuid).attempt.result?

/-- Looks at the end of an attempt. After a failure that is not fatal a timer is registered, and
the peer may be dialed again. -/
def conclude (r : ClientRole) (quit : QuitSignal Unit) (uuid : String) :
    Except Fault (ClientRole × QuitSignal Unit) :=
  match r.result? uuid with
  | none => .ok (r, quit)
  | some result =>
    let r := { r with attempts := r.attempts.filter fun d => d.peer.uuid != uuid }
    match result with
    | .ok participant =>
      .ok ({ r with succeeded := Uuid.Set.insert participant r.succeeded }, quit)
    | .error fault =>
      if fault.isFatal then .error fault
      else
        match quit.register? with
        | none => .error .alreadyRaised
        | some (timer, quit) =>
          .ok ({ r with resolving := r.resolving.filter (· != uuid)
                        retries := r.retries ++ [(timer, uuid)] }, quit)

/-- Dials once more after a timer, with what is known of the peer now. -/
def retry (r : ClientRole) (quit : QuitSignal Unit) (timer : Nat) : ClientRole × QuitSignal Unit :=
  match r.retries.find? fun t => t.1 == timer with
  | none => (r, quit)
  | some (_, uuid) =>
    let r := { r with retries := r.retries.filter fun t => t.1 != timer }
    (((r.known.last? uuid).map r.dial).getD r, quit.deregister timer)

def clear (r : ClientRole) : ClientRole := { r with attempts := [], retries := [] }

/-- Whether it is over: when all others have answered with success, or when nothing is left from
which an answer could come. -/
def verdict? (r : ClientRole) (others : Uuid.Set) : Option (Except Fault Uuid.Set) :=
  if others.all fun u => r.succeeded.contains u then some (.ok r.succeeded)
  else if !r.streamOpen && r.attempts.isEmpty && r.retries.isEmpty then some (.error .streamClosed)
  else none

end ClientRole

structure ServerRole where
  sessions : List (Nat × Session)
  nextSession : Nat
  validated : Uuid.Set

namespace ServerRole

def start : ServerRole := ⟨[], 0, []⟩

def accept (r : ServerRole) : ServerRole :=
  { r with sessions := r.sessions ++ [(r.nextSession, .fresh)], nextSession := r.nextSession + 1 }

def notice (r : ServerRole) (number : Nat) (f : Session → Session) : ServerRole :=
  { r with sessions := r.sessions.map fun s => if s.1 = number then (s.1, f s.2) else s }

def result? (r : ServerRole) (number : Nat) : Option (Except Fault (Option Uuid)) := do
  (← r.sessions.find? fun s => s.1 == number).2.result?

def conclude (r : ServerRole) (number : Nat) : ServerRole :=
  match r.result? number with
  | none => r
  | some result =>
    let r := { r with sessions := r.sessions.filter fun s => s.1 != number }
    match result with
    | .ok (some participant) =>
      { r with validated := Uuid.Set.insert participant r.validated }
    | _ => r

def clear (r : ServerRole) : ServerRole := { r with sessions := [] }

/-- The participants who were counted, once these are all others. -/
def verdict? (r : ServerRole) (others : Uuid.Set) : Option Uuid.Set :=
  if others.all fun u => r.validated.contains u then some r.validated else none

end ServerRole

end BeaconMesh.Round
