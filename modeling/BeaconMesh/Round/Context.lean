import BeaconMesh.Round.Fault

/-!
What one participant needs to write messages and to judge those of others.
-/

set_option autoImplicit false
set_option relaxedAutoImplicit false

namespace BeaconMesh.Round

structure Context where
  self : Uuid
  participants : Uuid.Set
  payload : Bytes
  deriving DecidableEq

namespace Context

/-- The view of a participant in a group; it belongs to the group in any case. -/
def of (self : Uuid) (group : List Uuid) (payloadLength : Nat) : Context :=
  ⟨self, (Uuid.Set.ofList group).insert self, canonicalPayload payloadLength⟩

def others (c : Context) : Uuid.Set := c.participants.filter fun u => u ≠ c.self

def messageLength (c : Context) : Nat := Message.lengthFor c.payload.length

def request (c : Context) (code : UInt8) : Message := ⟨c.self, code, c.payload⟩

def response (c : Context) (outcome : Outcome) : Message := ⟨c.self, outcome.code, c.payload⟩

/-- What this participant thinks of a request in the round with a code. -/
def judge (c : Context) (request : Message) (code : UInt8) : Outcome :=
  if request.sender ∉ c.participants then .wrongTestSet
  else if request.payload ≠ c.payload then .wrongSyntax
  else if request.sender = c.self then .wrongSelfReference
  else if request.code ≠ code then .wrongGeneration
  else .success

/-- Who reports success by an answer, or why it does not count. -/
def interpret (c : Context) (response : Message) : Except Objection Uuid :=
  if response.sender ∉ c.participants then .error (.unknownParticipant response.sender)
  else if response.payload ≠ c.payload then .error (.corruptedPayload response.sender)
  else
    match Outcome.ofCode? response.code with
    | some .success => .ok response.sender
    | some outcome => .error (.outcome response.sender outcome)
    | none => .error (.unknownCode response.sender response.code)

end Context

end BeaconMesh.Round
