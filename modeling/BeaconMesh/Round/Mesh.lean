import BeaconMesh.Round.Coordinator

/-!
Any number of participants that run their rounds at the same time, and the connections between
them. A connection carries what its two ends write, in order and in pieces of any size, and nothing
else; it may be left lying before it is accepted, over the end of a round too, and may break at any
time. What only one participant notices may happen whenever it likes.
-/

set_option autoImplicit false
set_option relaxedAutoImplicit false

namespace BeaconMesh.Round

namespace Run

/-- The attempt to reach a peer, unless the half that dials is over. -/
def attempt? (r : Run) (peer : String) : Option Attempt :=
  if r.result.isSome || r.succeeded.isSome then none
  else (r.client.attempts.find? fun d => d.peer.uuid == peer).map Dial.attempt

def accepts (r : Run) : Bool := !(r.result.isSome || r.validated.isSome)

def session? (r : Run) (number : Nat) : Option Session :=
  if r.accepts then (r.server.sessions.find? fun s => s.1 == number).map Prod.snd else none

end Run

def Attempt.isConnecting (a : Attempt) : Bool :=
  match a.stage with
  | .connecting => true
  | _ => false

/-- Whether nothing but the participant itself, its clock or a failure makes the event happen: no
connection is made by it and no bytes arrive. -/
def Event.isLocal : Event → Bool
  | .dialed _ .connected => false
  | .dialed _ (.arrived _) => false
  | .accepted => false
  | .served _ (.arrived _) => false
  | _ => true

/-- A connection between two of the participants, who are told apart by `ι`. Once it is accepted, it
has the round in which it was, and the number of the session there. -/
structure Wire (ι : Type) where
  dialer : ι
  peer : String
  round : Nat
  listener : ι
  session : Option (Nat × Nat)
  request : Bytes
  requestRead : Nat
  response : Bytes
  responseRead : Nat

namespace Wire

variable {ι : Type}

def nextRequest (w : Wire ι) (count : Nat) : Bytes := (w.request.drop w.requestRead).take count

def nextResponse (w : Wire ι) (count : Nat) : Bytes := (w.response.drop w.responseRead).take count

end Wire

/-- The participants and the connections between them. `line` tells the latest connection that a
participant made to a peer of this name. -/
structure Mesh (ι : Type) where
  node : ι → Drive
  wires : List (Wire ι)
  line : ι → String → Option Nat

inductive Mesh.Event (ι : Type) where
  | proceed (i : ι)
  | happen (i : ι) (e : Round.Event)
  | connect (i : ι) (peer : String) (j : ι)
  | accept (wire : Nat)
  | carryRequest (wire count : Nat)
  | carryResponse (wire count : Nat)

namespace Mesh

variable {ι : Type} [DecidableEq ι]

omit [DecidableEq ι] in
def fresh (members : ι → Coordinator) (rounds : ι → Nat) : Mesh ι :=
  ⟨fun i => .fresh (members i) (rounds i), [], fun _ _ => none⟩

def change (m : Mesh ι) (i : ι) (d : Drive) : Mesh ι :=
  { m with node := fun j => if j = i then d else m.node j }

def happen (m : Mesh ι) (i : ι) (e : Round.Event) : Mesh ι := m.change i ((m.node i).happen e)

/-- Connects a participant's attempt to reach a peer, if there is one without a connection, with
another participant; the request is written at once. -/
def connect (m : Mesh ι) (i : ι) (peer : String) (j : ι) : Mesh ι :=
  match (m.node i).current with
  | none => m
  | some run =>
    match run.attempt? peer with
    | none => m
    | some a =>
      if a.isConnecting then
        let a := a.step run.context run.code run.config.exchangeTimeout .connected
        { m.happen i (.dialed peer .connected) with
          wires := m.wires ++ [⟨i, peer, run.round, j, none, a.written, 0, [], 0⟩]
          line := fun i' peer' =>
            if i' = i ∧ peer' = peer then some m.wires.length else m.line i' peer' }
      else m

/-- Accepts a connection, if it was not accepted before and the participant who was dialed accepts
connections now, in whatever round. -/
def accept (m : Mesh ι) (wire : Nat) : Mesh ι :=
  match m.wires[wire]? with
  | none => m
  | some w =>
    match w.session, (m.node w.listener).current with
    | none, some run =>
      if run.accepts then
        { m.happen w.listener .accepted with
          wires := m.wires.set wire
            { w with session := some (run.round, run.server.nextSession) } }
      else m
    | _, _ => m

/-- Carries more of a request to the session that reads it, while that is there, and takes what the
session writes. -/
def carryRequest (m : Mesh ι) (wire count : Nat) : Mesh ι :=
  match m.wires[wire]? with
  | none => m
  | some w =>
    match w.session, (m.node w.listener).current with
    | some (round, number), some run =>
      if round = run.round then
        match run.session? number with
        | none => m
        | some s =>
          let bytes := w.nextRequest count
          let s := s.step run.context run.code run.config.exchangeTimeout (.arrived bytes)
          { m.happen w.listener (.served number (.arrived bytes)) with
            wires := m.wires.set wire
              { w with requestRead := w.requestRead + bytes.length, response := s.written } }
      else m
    | _, _ => m

/-- Carries more of a response to the attempt that waits for it, while that is there. -/
def carryResponse (m : Mesh ι) (wire count : Nat) : Mesh ι :=
  match m.wires[wire]? with
  | none => m
  | some w =>
    match (m.node w.dialer).current with
    | none => m
    | some run =>
      if m.line w.dialer w.peer = some wire ∧ w.round = run.round ∧
          (run.attempt? w.peer).isSome then
        let bytes := w.nextResponse count
        { m.happen w.dialer (.dialed w.peer (.arrived bytes)) with
          wires := m.wires.set wire { w with responseRead := w.responseRead + bytes.length } }
      else m

/-- What becomes of the participants by an event; nothing if it cannot happen. -/
def step (m : Mesh ι) : Mesh.Event ι → Mesh ι
  | .proceed i => m.change i (m.node i).proceed
  | .happen i e => if e.isLocal then m.happen i e else m
  | .connect i peer j => m.connect i peer j
  | .accept wire => m.accept wire
  | .carryRequest wire count => m.carryRequest wire count
  | .carryResponse wire count => m.carryResponse wire count

def run (m : Mesh ι) (events : List (Mesh.Event ι)) : Mesh ι := events.foldl step m

end Mesh

end BeaconMesh.Round
