import BeaconMesh.Crypto.Sha512
import BeaconMesh.Curve.Edwards

/-!
Key agreement on the Montgomery form of the curve, of which only the coordinate `u` is needed.
-/

set_option autoImplicit false
set_option relaxedAutoImplicit false

namespace BeaconMesh.Curve

def groupOrder : Nat := (1 <<< 252) + 27742317777372353535851937790883648493

/-- Clears the three lowest bits and the highest of 256 and sets the one below it. -/
def clamp (n : Nat) : Nat := (n &&& ((1 <<< 255) - 8)) % (1 <<< 254) + (1 <<< 254)

/-- The multiplier of a 32-byte secret: half of its hash, clamped, modulo the group order. -/
def scalarOf (secret : Bytes) : Nat :=
  clamp (Bytes.toNatLE ((Crypto.Sha512.hash secret).take 32)) % groupOrder

def publicBytes (secret : Bytes) : Block 32 :=
  (Point.multiple 253 (scalarOf secret) Point.base).encode

namespace Montgomery

/-- Two consecutive multiples of a point, each as a fraction `u / w`. -/
structure Rungs where
  lowU : Field
  lowW : Field
  highU : Field
  highW : Field
  deriving DecidableEq, Repr, Inhabited

def Rungs.exchange (r : Rungs) : Rungs := ⟨r.highU, r.highW, r.lowU, r.lowW⟩

/-- From the multiples `n` and `n + 1` of the point at `u` to `2 n` and `2 n + 1`. -/
def Rungs.climb (u : Field) (r : Rungs) : Rungs :=
  let a := r.lowU + r.lowW
  let aa := a * a
  let b := r.lowU - r.lowW
  let bb := b * b
  let e := aa - bb
  let da := (r.highU - r.highW) * a
  let cb := (r.highU + r.highW) * b
  let sum := da + cb
  let difference := da - cb
  ⟨aa * bb, e * (aa + 121665 * e), sum * sum, u * (difference * difference)⟩

def Rungs.step (u : Field) (bit : Bool) (r : Rungs) : Rungs :=
  if bit then (r.exchange.climb u).exchange else r.climb u

/-- The multiples `n` and `n + 1` of the point at `u`, for a number of at most `width` bits. -/
def ladder (u : Field) : Nat → Nat → Rungs
  | 0, _ => ⟨1, 0, u, 1⟩
  | width + 1, n => (ladder u width (n / 2)).step u (n % 2 == 1)

/-- The coordinate of the multiple of the point at `u`; zero stands for the point at infinity. -/
def multiple (n : Nat) (u : Field) : Field :=
  let r := ladder u 255 n
  r.lowU * Field.inv r.lowW

def ofEncoded (bytes : Bytes) : Field :=
  let y := Point.encodedY bytes
  (1 + y) * Field.inv (1 - y)

end Montgomery

def agreement (secret publicKey : Bytes) : Block 32 :=
  let u := Montgomery.multiple (scalarOf secret) (Montgomery.ofEncoded publicKey)
  ⟨Bytes.ofNatLE 32 u.val, Bytes.length_ofNatLE _ _⟩

/-- What a secret and a public key have in common, unless it is degenerate: nothing but zeros. -/
def agree? (secret publicKey : Bytes) : Option (Block 32) :=
  let shared := agreement secret publicKey
  if shared = Block.zero 32 then none else some shared

end BeaconMesh.Curve
