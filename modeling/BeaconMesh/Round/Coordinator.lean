import BeaconMesh.Round.Run

/-!
A participant through all its rounds. From one round to the next it keeps what is known of peers.
It runs the rounds 0, 1, 2, … one after another, each to its end, until it has run as many as it was
asked to or one has failed.
-/

set_option autoImplicit false
set_option relaxedAutoImplicit false

namespace BeaconMesh.Round

structure Coordinator where
  context : Context
  config : Config
  known : Roster

namespace Coordinator

def fresh (self : Uuid) (group : List Uuid) (config : Config) : Coordinator :=
  ⟨.of self group config.payloadLength, config, []⟩

def start (c : Coordinator) (round : Nat) : Except Fault Run :=
  Run.start c.context c.config c.known round

def after (c : Coordinator) (r : Run) : Coordinator := { c with known := r.client.known }

def summary (c : Coordinator) (listener : String) : String :=
  "ConnectionRoundCoordinator \x7b local: " ++ c.context.self.text ++ ", listener: Some("
    ++ listener ++ "), known: " ++ Text.decimal c.known.length ++ " \x7d"

end Coordinator

/-- A participant on its way through its rounds. The current one is under way, or nobody has looked
at its end. -/
structure Drive where
  coordinator : Coordinator
  rounds : Nat
  begun : Nat
  current : Option Run
  reports : List Report
  failure : Option Fault

namespace Drive

def fresh (coordinator : Coordinator) (rounds : Nat) : Drive :=
  ⟨coordinator, rounds, 0, none, [], none⟩

def begin (d : Drive) : Drive :=
  match d.coordinator.start d.begun with
  | .error fault => { d with begun := d.begun + 1, failure := some fault }
  | .ok run => { d with begun := d.begun + 1, current := some run }

def collect (d : Drive) (run : Run) : Drive :=
  match run.result with
  | none => d
  | some (.ok report) =>
    { d with coordinator := d.coordinator.after run, current := none
             reports := d.reports ++ [report] }
  | some (.error fault) =>
    { d with coordinator := d.coordinator.after run, current := none, failure := some fault }

/-- Goes on to the next round if the one under way has completed and more are left. -/
def proceed (d : Drive) : Drive :=
  match d.current with
  | some run => d.collect run
  | none => if d.failure.isNone && decide (d.begun < d.rounds) then d.begin else d

def happen (d : Drive) (e : Event) : Drive :=
  { d with current := d.current.map fun run => run.step e }

/-- What the rounds that have returned with success have shown, also the last of them while nobody
has looked at its end. -/
def returned (d : Drive) : List Report :=
  d.reports ++ match d.current.bind Run.result with
    | some (.ok report) => [report]
    | _ => []

inductive Move where
  | proceed
  | happen (e : Event)

def move (d : Drive) : Move → Drive
  | .proceed => d.proceed
  | .happen e => d.happen e

def run (d : Drive) (moves : List Move) : Drive := moves.foldl move d

end Drive

end BeaconMesh.Round
