import BeaconMesh.Beacon.Basic
import BeaconMesh.Crypto.Sealed

/-!
Reading a blob with the key of one device: the record with the device's own tag is opened, the
others cannot be told apart from noise.
-/

set_option autoImplicit false
set_option relaxedAutoImplicit false

namespace BeaconMesh.Beacon

/-- What a record says to the device it is for. -/
structure Notice where
  sender : KeyHash
  secret : BeaconSecret
  deriving DecidableEq

structure Parsed where
  notice : Option Notice
  expired : Bool
  expiresAt : UInt64
  deriving DecidableEq

def Parsed.matched (p : Parsed) : Bool := p.notice.isSome

def openRecord (keys : RecordKeys) (preamble record : Bytes) : Except Fault Notice :=
  let nonce := (record.drop 16).take 12
  match Crypto.Sealed.reveal keys.payloadKey nonce preamble (record.drop 28) with
  | none => .error (.malformed .unauthentic)
  | some payload => .ok ⟨⟨Block.leading 16 payload⟩, ⟨Block.leading 32 (payload.drop 16)⟩⟩

def findRecord (keys : RecordKeys) (ownTag preamble : Bytes) :
    List Bytes → Except Fault (Option Notice)
  | [] => .ok none
  | record :: rest =>
    if record.take 16 = ownTag then
      match openRecord keys preamble record with
      | .error fault => .error fault
      | .ok notice => .ok (some notice)
    else findRecord keys ownTag preamble rest

def readExchange (bytes : Bytes) : Except Fault PublicKey :=
  (PublicKey.ofBytes bytes).mapError fun fault => .malformed (.exchangeKey fault)

/-- The keys of the exchange that the blob was made for, unless the agreement is degenerate. -/
def exchangeKeys (agreed : Option (Block 32)) (preamble : Bytes) : Except Fault RecordKeys :=
  match agreed with
  | none => .error (.malformed .degenerateExchange)
  | some shared => .ok (RecordKeys.derive shared.bytes preamble)

def parse (blob : Bytes) (reader : KeyPair) (now : Instant) : Except Fault Parsed :=
  if blob.length < preambleLength then .error (.malformed (.shortPreamble blob.length))
  else
    let preamble := blob.take preambleLength
    let records := blob.drop preambleLength
    if records.length % recordLength ≠ 0 then
      .error (.malformed (.partialRecord records.length))
    else do
      let exchange ← readExchange (preamble.take 32)
      let expiresAt := UInt64.ofNat (Bytes.toNatBE (preamble.drop 32))
      let keys ← exchangeKeys (reader.agree? exchange) preamble
      let notice ← findRecord keys (keys.tagFor reader.publicKey) preamble
        (Bytes.pieces recordLength records)
      return ⟨notice, decide (expiresAt < now.unixMillis), expiresAt⟩

end BeaconMesh.Beacon
