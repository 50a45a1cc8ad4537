import BeaconMesh.Ascending
import BeaconMesh.Bytes.Hex
import BeaconMesh.Crypto.Blake3
import BeaconMesh.Curve.Agreement
import BeaconMesh.Entropy

/-!
The identity of a device: its secret, the public key that belongs to it, and the short digest of
a public key by which peers are looked up.
-/

set_option autoImplicit false
set_option relaxedAutoImplicit false

namespace BeaconMesh

structure PublicKey where
  encoded : Block 32
  deriving DecidableEq

instance : Inhabited PublicKey := ⟨⟨default⟩⟩

/-- The digest of a public key that serves as the peer's index. -/
structure KeyHash where
  digest : Block 16
  deriving DecidableEq

instance : Inhabited KeyHash := ⟨⟨default⟩⟩

inductive KeyFault where
  | wrongLength (got : Nat)
  | notOnCurve
  | smallOrder
  | degenerateAgreement (key : PublicKey)
  deriving DecidableEq

namespace KeyHash

/-- The digest of any bytes: half of their hash. -/
def ofKeyBytes (bytes : Bytes) : KeyHash := ⟨Block.leading 16 (Crypto.Blake3.hash bytes)⟩

def ofKey (key : PublicKey) : KeyHash := ofKeyBytes key.encoded.bytes

def bytes (h : KeyHash) : Bytes := h.digest.bytes

def toHex (h : KeyHash) : String := Bytes.Hex.encode h.bytes

def ofHex (text : String) : Except Bytes.Hex.Fault KeyHash :=
  match Bytes.Hex.decode text with
  | .error fault => .error fault
  | .ok bytes =>
    match Block.ofBytes? 16 bytes with
    | some block => .ok ⟨block⟩
    | none => .error .wrongLength

def le (a b : KeyHash) : Bool := decide (a.bytes ≤ b.bytes)

def sorted (hashes : List KeyHash) : List KeyHash := Ascending.ofList le hashes

end KeyHash

namespace PublicKey

def bytes (key : PublicKey) : Bytes := key.encoded.bytes

def toHex (key : PublicKey) : String := Bytes.Hex.encode key.bytes

/-- The short text of a key: its first eight digits and three points. -/
def display (key : PublicKey) : String :=
  String.ofList ((Bytes.Hex.encodeChars key.bytes).take 8) ++ "..."

def hash (key : PublicKey) : KeyHash := KeyHash.ofKey key

/-- Takes any encoded point of the curve as a key, also one of small order. -/
def ofPoint (bytes : Bytes) : Except KeyFault PublicKey :=
  match Block.ofBytes? 32 bytes with
  | none => .error (.wrongLength bytes.length)
  | some block => if (Curve.Point.decode? bytes).isSome then .ok ⟨block⟩ else .error .notOnCurve

/-- Takes an encoded point of the curve as a key unless its order is small. -/
def ofBytes (bytes : Bytes) : Except KeyFault PublicKey :=
  match Block.ofBytes? 32 bytes with
  | none => .error (.wrongLength bytes.length)
  | some block =>
    match Curve.Point.decode? bytes with
    | none => .error .notOnCurve
    | some point => if point.hasSmallOrder then .error .smallOrder else .ok ⟨block⟩

end PublicKey

def KeyFault.message : KeyFault → String
  | .wrongLength got => "expected 32 bytes, got " ++ Text.decimal got
  | .notOnCurve => "not a valid curve point"
  | .smallOrder => "small-order point"
  | .degenerateAgreement key => "degenerate key agreement with " ++ key.display

structure KeyPair where
  secret : Block 32
  publicKey : PublicKey
  publicKey_eq : publicKey = ⟨Curve.publicBytes secret.bytes⟩

namespace KeyPair

def ofSecret (secret : Block 32) : KeyPair := ⟨secret, ⟨Curve.publicBytes secret.bytes⟩, rfl⟩

instance : Inhabited KeyPair := ⟨ofSecret default⟩

def generate (e : Entropy) : KeyPair × Entropy :=
  let (secret, e) := e.block 32
  (ofSecret secret, e)

def hash (pair : KeyPair) : KeyHash := pair.publicKey.hash

def agreement (pair : KeyPair) (peer : PublicKey) : Block 32 :=
  Curve.agreement pair.secret.bytes peer.bytes

/-- What both ends of an agreement compute, unless the other end's key makes it degenerate. -/
def agree? (pair : KeyPair) (peer : PublicKey) : Option (Block 32) :=
  Curve.agree? pair.secret.bytes peer.bytes

theorem agree?_eq_none_iff {pair : KeyPair} {peer : PublicKey} :
    pair.agree? peer = none ↔ pair.agreement peer = Block.zero 32 := by
  simp [agree?, Curve.agree?, agreement]

theorem agree?_of_ne {pair : KeyPair} {peer : PublicKey} (h : pair.agreement peer ≠ Block.zero 32) :
    pair.agree? peer = some (pair.agreement peer) := by
  rw [agreement] at h
  simp only [agree?, Curve.agree?, agreement, if_neg h]

end KeyPair

end BeaconMesh
