import BeaconMesh.Peer.Availability
import BeaconMesh.Round.Coordinator

/-!
Rounds of a participant who hears of peers and whom nobody can reach: every attempt to connect
fails at once. Time is counted in milliseconds.
-/

set_option autoImplicit false
set_option relaxedAutoImplicit false

namespace BeaconMesh.Round

structure Bench where
  coordinator : Coordinator
  streamRoom : Nat
  inbox : Inbox
  cause : String

structure Bench.Progress where
  run : Run
  inbox : Inbox
  now : Nat
  deadlines : List (Nat × Nat)

namespace Bench

def fresh (self : Uuid) (group : List Uuid) (config : Config) (streamRoom : Nat) (cause : String) :
    Bench :=
  ⟨.fresh self group config, streamRoom, .fresh false, cause⟩

def announce (b : Bench) (events : List PeerAvailability) : Bench :=
  if b.inbox.closed then b
  else { b with inbox := events.foldl (Inbox.push b.streamRoom) b.inbox }

def closeStream (b : Bench) : Bench := { b with inbox := { b.inbox with closed := true } }

namespace Progress

def hear (p : Progress) : Progress :=
  if p.run.result.isSome || p.run.succeeded.isSome then p
  else
    let run := p.run.steps (p.inbox.events.map .heard)
    { p with run := if p.inbox.closed then run.step .streamEnded else run
             inbox := { p.inbox with events := [] } }

def refuse (p : Progress) (cause : String) : Progress :=
  let waiting := p.run.client.attempts.map fun d => d.peer.uuid
  let events := waiting.flatMap fun uuid => [.dialed uuid (.failed cause), .concluded uuid]
  { p with run := p.run.steps events }

/-- A retry takes effect a millisecond after the failure at the earliest. -/
def delay (config : Config) : Nat := max 1 ((config.retryDelay.nanos + 999999) / 1000000)

def setDeadlines (p : Progress) : Progress :=
  let new := p.run.client.retries.filter fun t => p.deadlines.all fun d => d.1 != t.1
  { p with deadlines := p.deadlines ++ new.map fun t => (t.1, p.now + delay p.run.config) }

def ring (p : Progress) : Progress :=
  let due := p.deadlines.filter fun d => d.2 ≤ p.now
  let run := p.run.steps (due.map fun d => .retried d.1)
  { p with run := run, deadlines := p.deadlines.filter fun d => p.now < d.2 }

def settle (p : Progress) (cause : String) : Progress :=
  ((p.ring.hear).refuse cause).setDeadlines

def isLate (p : Progress) : Bool :=
  p.run.config.roundTimeout.any fun limit => limit.nanos ≤ p.now * 1000000

def go (cause : String) : Nat → Progress → Progress
  | 0, p => p
  | left + 1, p =>
    let p := p.settle cause
    if p.run.result.isSome then p
    else if p.isLate then { p with run := p.run.step .limitReached }
    else go cause left { p with now := p.now + 1 }

end Progress

/-- How many milliseconds a round has to be watched to see its end, if it has one. Without a limit
everything that is going to change has changed after the first retries. -/
def patience (config : Config) : Nat :=
  match config.roundTimeout with
  | none => Progress.delay config + 2
  | some limit => (limit.nanos + 999999) / 1000000 + 1

/-- Runs a round; there is no result if it would go on without end. -/
def run (b : Bench) (round : Nat) : Option (Except Fault Report) × Bench :=
  match b.coordinator.start round with
  | .error fault => (some (.error fault), b)
  | .ok r =>
    let p := Progress.go b.cause (patience b.coordinator.config) ⟨r, b.inbox, 0, []⟩
    (p.run.result, { b with coordinator := b.coordinator.after p.run, inbox := p.inbox })

/-- Runs rounds, each after some peers were told of, until one does not complete; the stream may end
after those of the first. -/
def runAll (b : Bench) (closes : Bool) : List (Nat × List PeerAvailability) →
    List (Option (Except Fault Report)) × Bench
  | [] => ([], b)
  | (round, events) :: rest =>
    let b := b.announce events
    match (if closes then b.closeStream else b).run round with
    | (some (.ok report), b) =>
      let (later, b) := runAll b closes rest
      (some (.ok report) :: later, b)
    | (other, b) => ([other], b)

end Bench

end BeaconMesh.Round
