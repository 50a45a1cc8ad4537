import BeaconMesh.Ascending
import BeaconMesh.Bytes.Hex
import BeaconMesh.Time.Basic

/-!
What the participants of a round agree on beforehand: their 16-byte names, the times and sizes the
round keeps to, the codes of rounds and of answers, and the form of a message: the name of its
sender, a code, and a payload that both ends know, so that a link which garbles data is noticed.
-/

set_option autoImplicit false
set_option relaxedAutoImplicit false

namespace BeaconMesh

structure Uuid where
  block : Block 16
  deriving DecidableEq

namespace Uuid

instance : Inhabited Uuid := ⟨⟨default⟩⟩

def bytes (u : Uuid) : Bytes := u.block.bytes

/-- The hexadecimal text in five groups with hyphens between them. -/
def text (u : Uuid) : String :=
  let digits (start count : Nat) : String :=
    String.ofList (Bytes.Hex.encodeChars ((u.bytes.drop start).take count))
  digits 0 4 ++ "-" ++ digits 4 2 ++ "-" ++ digits 6 2 ++ "-" ++ digits 8 2 ++ "-" ++ digits 10 6

def le (a b : Uuid) : Bool := decide (a.bytes ≤ b.bytes)

abbrev Set := List Uuid

def Set.ofList (us : List Uuid) : Set := Ascending.ofList le us

def Set.insert (u : Uuid) (s : Set) : Set := Ascending.insert le u s

end Uuid

namespace Round

structure Config where
  exchangeTimeout : Duration
  retryDelay : Duration
  payloadLength : Nat
  roundTimeout : Option Duration
  deriving DecidableEq, Repr

namespace Config

def standard : Config := ⟨.ofSecs 10, .ofMillis 500, 1024, none⟩

def fast : Config := ⟨.ofSecs 2, .ofMillis 50, 256, some (.ofSecs 30)⟩

instance : Inhabited Config := ⟨standard⟩

end Config

/-- What a server thinks of a request. -/
inductive Outcome where
  | wrongGeneration
  | wrongTestSet
  | success
  | wrongSelfReference
  | wrongSyntax
  deriving DecidableEq, Repr, Inhabited

namespace Outcome

def code : Outcome → UInt8
  | .wrongGeneration => 0x30
  | .wrongTestSet => 0x31
  | .success => 0x32
  | .wrongSelfReference => 0x33
  | .wrongSyntax => 0x34

def all : List Outcome :=
  [.wrongGeneration, .wrongTestSet, .success, .wrongSelfReference, .wrongSyntax]

def ofCode? (code : UInt8) : Option Outcome := all.find? fun o => o.code = code

def name : Outcome → String
  | .wrongGeneration => "WRONG_GENERATION"
  | .wrongTestSet => "WRONG_TEST_SET"
  | .success => "SUCCESS"
  | .wrongSelfReference => "WRONG_SELF_REFERENCE"
  | .wrongSyntax => "WRONG_SYNTAX"

end Outcome

def highest : Nat := 9

def code? (round : Nat) : Option UInt8 :=
  if round ≤ highest then some (UInt8.ofNat (0x30 + round)) else none

/-- The payload of the given length: the numbers from 0 to 250 over and over. -/
def canonicalPayload (length : Nat) : Bytes :=
  (List.range length).map fun i => UInt8.ofNat (i % 251)

structure Message where
  sender : Uuid
  code : UInt8
  payload : Bytes
  deriving DecidableEq

namespace Message

instance : Inhabited Message := ⟨⟨default, 0, []⟩⟩

def lengthFor (payloadLength : Nat) : Nat := 17 + payloadLength

def encode (m : Message) : Bytes := m.sender.bytes ++ m.code :: m.payload

def decode? (payloadLength : Nat) (bytes : Bytes) : Option Message :=
  if bytes.length = lengthFor payloadLength then
    some ⟨⟨Block.leading 16 bytes⟩, (bytes.drop 16).headD 0, bytes.drop 17⟩
  else none

end Message

end Round

end BeaconMesh
