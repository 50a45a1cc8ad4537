import BeaconMesh.Bytes.Basic

/-!
The twisted Edwards curve `-x² + y² = 1 + d x² y²` over the integers modulo `2 ^ 255 - 19`, with
inverses and square roots by powers. Its points are the public keys; each has a 32-byte form.
Reading that form takes `y` modulo the prime, so a few points have a second form, and a set sign bit
is ignored where `x` is zero.
-/

set_option autoImplicit false
set_option relaxedAutoImplicit false

namespace BeaconMesh.Curve

abbrev prime : Nat := 57896044618658097711785492504343953926634992332820282019728792003956564819949

abbrev Field := Fin prime

namespace Field

instance : @NeZero Nat Zero.ofOfNat0 prime := ⟨Nat.succ_ne_zero _⟩

def ofNat (n : Nat) : Field := Fin.ofNat prime n

/-- The powers needed for an exponent of at most `width` bits, by repeated squaring. -/
def powBits : Nat → Field → Nat → Field
  | 0, _, _ => 1
  | width + 1, a, exponent =>
    let high := powBits width (a * a) (exponent / 2)
    if exponent % 2 = 1 then a * high else high

def pow (a : Field) (exponent : Nat) : Field := powBits 255 a exponent

def inv (a : Field) : Field := pow a (prime - 2)

def sqrtMinusOne : Field := pow 2 ((prime - 1) / 4)

/-- A square root, if there is one; of the two the even one. -/
def sqrt? (a : Field) : Option Field :=
  let candidate := pow a ((prime + 3) / 8)
  let turned := candidate * sqrtMinusOne
  let even (r : Field) : Field := if r.val % 2 = 1 then 0 - r else r
  if candidate * candidate = a then some (even candidate)
  else if turned * turned = a then some (even turned)
  else none

end Field

def coefficient : Field := (0 - 121665) * Field.inv 121666

/-- A point in extended projective coordinates: `x = X / Z`, `y = Y / Z`, `x y = T / Z`. -/
structure Point where
  x : Field
  y : Field
  z : Field
  t : Field
  deriving DecidableEq, Repr, Inhabited

namespace Point

def neutral : Point := ⟨0, 1, 1, 0⟩

def ofAffine (x y : Field) : Point := ⟨x, y, 1, x * y⟩

/-- The sum of two points; the formula holds for all pairs, equal ones too. -/
def add (p q : Point) : Point :=
  let a := (p.y - p.x) * (q.y - q.x)
  let b := (p.y + p.x) * (q.y + q.x)
  let c := p.t * (2 * coefficient) * q.t
  let d := p.z * 2 * q.z
  let e := b - a
  let f := d - c
  let g := d + c
  let h := b + a
  ⟨e * f, g * h, f * g, e * h⟩

def double (p : Point) : Point := add p p

def multiple : Nat → Nat → Point → Point
  | 0, _, _ => neutral
  | width + 1, n, p =>
    let rest := multiple width (n / 2) (double p)
    if n % 2 = 1 then add p rest else rest

def isNeutral (p : Point) : Bool := p.x == 0 && p.y == p.z

def hasSmallOrder (p : Point) : Bool := p.double.double.double.isNeutral

/-- The 32-byte form: `y`, with the lowest bit of `x` as its highest bit. -/
def encode (p : Point) : Block 32 :=
  let scale := Field.inv p.z
  let x := p.x * scale
  let y := p.y * scale
  ⟨Bytes.ofNatLE 32 (y.val + (1 <<< 255) * (x.val % 2)), Bytes.length_ofNatLE _ _⟩

def encodedY (bytes : Bytes) : Field := Field.ofNat (Bytes.toNatLE bytes % (1 <<< 255))

def decode? (bytes : Bytes) : Option Point :=
  let y := encodedY bytes
  let square := (y * y - 1) * Field.inv (coefficient * y * y + 1)
  match Field.sqrt? square with
  | none => none
  | some x => some (ofAffine (if Bytes.toNatLE bytes / (1 <<< 255) % 2 = 1 then 0 - x else x) y)

/-- The point that generates the group of the keys; its `y` is four fifths. -/
def base : Point :=
  ofAffine 15112221349535400772501151409588531511454012693041857206046113283949847762202
    46316835694926478169428394003475163141307993866256225615783033603165251855960

end Point

end BeaconMesh.Curve
