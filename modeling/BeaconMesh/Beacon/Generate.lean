import BeaconMesh.Beacon.Basic
import BeaconMesh.Crypto.Sealed

/-!
Making a beacon set: one key pair for the exchange, one sealed record for each recipient.
-/

set_option autoImplicit false
set_option relaxedAutoImplicit false

namespace BeaconMesh.Beacon

structure BeaconSet where
  blob : Bytes
  secrets : List Addressed
  expiresAt : UInt64
  deriving DecidableEq

/-- The time at which a life that begins now ends, in milliseconds, at most `2 ^ 64 - 1`. -/
def expiration (ttl : Duration) (now : Instant) : UInt64 :=
  UInt64.ofNat (min (now.unixMillis.toNat + ttl.toMillis) (UInt64.size - 1))

def preambleOf (exchange : PublicKey) (expiresAt : UInt64) : Bytes :=
  exchange.bytes ++ Bytes.ofNatBE 8 expiresAt.toNat

def recordOf (keys : RecordKeys) (preamble nonce : Bytes) (sender : KeyHash)
    (item : Addressed) : Bytes :=
  keys.tagFor item.recipient ++ nonce ++
    Crypto.Sealed.close keys.payloadKey nonce preamble (sender.bytes ++ item.secret.bytes)

def andThen {α β : Type} (made : Except Fault α × Entropy)
    (next : α → Entropy → Except Fault β × Entropy) : Except Fault β × Entropy :=
  match made with
  | (.error fault, e) => (.error fault, e)
  | (.ok a, e) => next a e

def sealFor (keys : RecordKeys) (preamble : Bytes) (sender : KeyHash) (recipient : PublicKey)
    (e : Entropy) : (Bytes × Addressed) × Entropy :=
  let (secret, e) := BeaconSecret.random e
  let (nonce, e) := e.take 12
  let item : Addressed := ⟨recipient, secret⟩
  ((recordOf keys preamble nonce sender item, item), e)

/-- The record for one recipient, unless agreement with its key gave nothing secret. -/
def addressWith (agreed : Option (Block 32)) (preamble : Bytes) (sender : KeyHash)
    (recipient : PublicKey) (e : Entropy) : Except Fault (Bytes × Addressed) × Entropy :=
  match agreed with
  | none => (.error (.invalidKey (.degenerateAgreement recipient)), e)
  | some shared =>
    let (record, e) := sealFor (RecordKeys.derive shared.bytes preamble) preamble sender recipient e
    (.ok record, e)

def addressTo (exchange : KeyPair) (preamble : Bytes) (sender : KeyHash) (recipient : PublicKey)
    (e : Entropy) : Except Fault (Bytes × Addressed) × Entropy :=
  addressWith (exchange.agree? recipient) preamble sender recipient e

def addressAll (exchange : KeyPair) (preamble : Bytes) (sender : KeyHash) :
    List PublicKey → Entropy → Except Fault (List (Bytes × Addressed)) × Entropy
  | [], e => (.ok [], e)
  | recipient :: rest, e =>
    andThen (addressTo exchange preamble sender recipient e) fun record e =>
      andThen (addressAll exchange preamble sender rest e) fun records e =>
        (.ok (record :: records), e)

/-- The set that holds these records, in random order. -/
def assemble (preamble : Bytes) (expiresAt : UInt64) (items : List (Bytes × Addressed))
    (e : Entropy) : BeaconSet × Entropy :=
  let (records, e) := e.shuffle (items.map Prod.fst)
  (⟨preamble ++ records.flatten, items.map Prod.snd, expiresAt⟩, e)

/-- A beacon set for these recipients that lives for `ttl` from now on. -/
def generate (recipients : List PublicKey) (sender : KeyPair) (ttl : Duration) (now : Instant)
    (e : Entropy) : Except Fault BeaconSet × Entropy :=
  if ttl.nanos = 0 ∨ longestTtl.nanos < ttl.nanos then (.error (.invalidTtl ttl), e)
  else
    let expiresAt := expiration ttl now
    let (exchange, e) := KeyPair.generate e
    let preamble := preambleOf exchange.publicKey expiresAt
    andThen (addressAll exchange preamble sender.hash recipients e) fun items e =>
      let (set, e) := assemble preamble expiresAt items e
      (.ok set, e)

/-- The public keys that these byte strings encode, or what is wrong with the first bad one. -/
def keysOf : List Bytes → Except Fault (List PublicKey)
  | [] => .ok []
  | bytes :: rest =>
    match PublicKey.ofBytes bytes with
    | .error fault => .error (.invalidKey fault)
    | .ok key =>
      match keysOf rest with
      | .error fault => .error fault
      | .ok keys => .ok (key :: keys)

def generateFromBytes (recipients : List Bytes) (sender : KeyPair) (ttl : Duration)
    (now : Instant) (e : Entropy) : Except Fault BeaconSet × Entropy :=
  match keysOf recipients with
  | .error fault => (.error fault, e)
  | .ok keys => generate keys sender ttl now e

end BeaconMesh.Beacon
