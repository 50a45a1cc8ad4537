import BeaconMesh.Key
import BeaconMesh.Time.Basic

/-!
A beacon set tells each of a number of recipients, and nobody else, who is near and under which
secret it can be reached. Its blob is a preamble, the key of one exchange and the time at which
the set expires, followed by one record for each recipient in random order.
-/

set_option autoImplicit false
set_option relaxedAutoImplicit false

namespace BeaconMesh

structure BeaconSecret where
  block : Block 32
  deriving DecidableEq

namespace BeaconSecret

instance : Inhabited BeaconSecret := ⟨⟨default⟩⟩

def random (e : Entropy) : BeaconSecret × Entropy :=
  let (block, e) := e.block 32
  (⟨block⟩, e)

def bytes (s : BeaconSecret) : Bytes := s.block.bytes

def redacted : String := "BeaconSecret(..)"

end BeaconSecret

namespace Beacon

def longestTtl : Duration := .ofSecs 86400

def preambleLength : Nat := 40

/-- The length of a record: tag, nonce and the sealed digest and secret. -/
def recordLength : Nat := 92

inductive Malformation where
  | shortPreamble (length : Nat)
  | partialRecord (length : Nat)
  | exchangeKey (fault : KeyFault)
  | degenerateExchange
  | unauthentic
  deriving DecidableEq

inductive Fault where
  | invalidKey (fault : KeyFault)
  | invalidTtl (ttl : Duration)
  | encryption
  | malformed (cause : Malformation)
  deriving DecidableEq

def Malformation.message : Malformation → String
  | .shortPreamble length =>
    "blob of " ++ Text.decimal length ++ " bytes is shorter than the preamble"
  | .partialRecord length => Text.decimal length ++ " trailing bytes do not form whole records"
  | .exchangeKey fault => "ephemeral key: invalid public key: " ++ fault.message
  | .degenerateExchange => "degenerate ephemeral key"
  | .unauthentic => "record failed authentication"

def Fault.message : Fault → String
  | .invalidKey fault => "invalid public key: " ++ fault.message
  | .invalidTtl ttl => "invalid beacon ttl: " ++ ttl.text
  | .encryption => "beacon encryption failed"
  | .malformed cause => "malformed beacon: " ++ cause.message

/-- What a beacon record of one recipient was made with. -/
structure Addressed where
  recipient : PublicKey
  secret : BeaconSecret
  deriving DecidableEq

/-- The two keys of one agreement: one names the record, one seals it. -/
structure RecordKeys where
  tagKey : Bytes
  payloadKey : Bytes
  deriving DecidableEq

namespace RecordKeys

def derive (shared preamble : Bytes) : RecordKeys :=
  { tagKey := Crypto.Blake3.deriveKey "lantern 2024 notification beacon tag v1" (shared ++ preamble)
    payloadKey :=
      Crypto.Blake3.deriveKey "lantern 2024 notification beacon payload v1" (shared ++ preamble) }

def tagFor (keys : RecordKeys) (recipient : PublicKey) : Bytes :=
  (Crypto.Blake3.keyedHash keys.tagKey recipient.bytes).take 16

end RecordKeys

end Beacon

end BeaconMesh
