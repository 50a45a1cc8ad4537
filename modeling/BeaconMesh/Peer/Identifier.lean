import BeaconMesh.Json.Parse
import BeaconMesh.Text.Blank

/-!
The name under which a transport knows a peer: a uuid of any text and the generation of its
advertisement, which rises whenever the peer advertises anew.
-/

set_option autoImplicit false
set_option relaxedAutoImplicit false

namespace BeaconMesh

/-- A peer as the transport names it, with how often it has advertised anew, modulo `2 ^ 32`. -/
structure PeerIdentifier where
  uuid : String
  generation : UInt32
  deriving DecidableEq, Repr, Inhabited

namespace PeerIdentifier

inductive Fault where
  | noGeneration (text : String)
  | noUuid (text : String)
  | badGeneration (text : String) (fault : Text.NumeralFault)
  deriving DecidableEq, Repr

def Fault.message : Fault → String
  | .noGeneration text => "peer identifier without generation: " ++ text
  | .noUuid text => "peer identifier without uuid: " ++ text
  | .badGeneration text fault => "bad generation in " ++ text ++ ": " ++ fault.message

/-- The same peer, advertising once more. -/
def next (id : PeerIdentifier) : PeerIdentifier := { id with generation := id.generation + 1 }

def text (id : PeerIdentifier) : String :=
  id.uuid ++ ":" ++ Text.hexadecimal id.generation.toNat

/-- The peer that a text names; the last colon counts. -/
def ofText (text : String) : Except Fault PeerIdentifier :=
  match Text.splitLast? ':' text.toList with
  | none => .error (.noGeneration text)
  | some (uuid, generation) =>
    if uuid.isEmpty then .error (.noUuid text)
    else
      match Text.readNumber 16 4294967295 generation with
      | .error fault => .error (.badGeneration text fault)
      | .ok n => .ok ⟨String.ofList uuid, UInt32.ofNat n⟩

def toJson (id : PeerIdentifier) : Json.Value :=
  .object [("uuid".toList, .ofText id.uuid), ("generation".toList, .ofNat id.generation.toNat)]

def ofFields? (uuid generation : Json.Value) : Option PeerIdentifier := do
  return ⟨← uuid.text?, UInt32.ofNat (← generation.nat? 4294967295)⟩

/-- The peer that a JSON value describes, as an object or as the list of its fields. -/
def ofJson? : Json.Value → Option PeerIdentifier
  | .object members => do
    let named ← Json.Value.named? members
    ofFields? (← Json.Value.member? "uuid" named) (← Json.Value.member? "generation" named)
  | .array [uuid, generation] => ofFields? uuid generation
  | _ => none

def ofJsonText? (s : String) : Option PeerIdentifier := do ofJson? (← Json.Value.ofText? s)

end PeerIdentifier

end BeaconMesh
