import BeaconMesh.Notification.Server

/-!
A server in use: one operation after another, each run to its end on a transport that may refuse
any call, and what is noted of them.
-/

set_option autoImplicit false
set_option relaxedAutoImplicit false

namespace BeaconMesh.Notification.Server

/-- An operation and what it meets. It makes no call twice, so that the transport has one answer to
each. -/
structure Operation where
  command : Command
  now : Instant
  entropy : Entropy
  answer : TransportCall → Except String Unit

/-- What an operation has come to: the calls it made, in order, and its result. -/
structure Turn where
  operation : Operation
  calls : List TransportCall
  result : Except Fault Unit

def complete (answer : TransportCall → Except String Unit) :
    Progress × Server → List TransportCall × Except Fault Unit × Server
  | (.done result, s) => ([], result, s)
  | (.waits pending, s) =>
    let (calls, ended) := complete answer (s.resume pending (answer pending.call))
    (pending.call :: calls, ended)
termination_by reached => reached.1.callsLeft
decreasing_by exact callsLeft_resume _ _ _

def carryOut (s : Server) (o : Operation) : Turn × Server :=
  let (calls, result, s) := complete o.answer (s.begin o.command o.now o.entropy).1
  (⟨o, calls, result⟩, s)

/-- A server and its past, the latest turn first. -/
structure History where
  server : Server
  turns : List Turn

namespace History

def fresh (keys : KeyPair) (ttl : Duration) : History := ⟨.fresh keys ttl, []⟩

def step (h : History) (o : Operation) : History :=
  let (turn, server) := h.server.carryOut o
  ⟨server, turn :: h.turns⟩

def run (h : History) (operations : List Operation) : History := operations.foldl step h

end History

end BeaconMesh.Notification.Server
