import BeaconMesh.Bytes.Basic

/-!
A stream of random bytes with a reading position, and the choices made from it.
-/

set_option autoImplicit false
set_option relaxedAutoImplicit false

namespace BeaconMesh

/-- An endless stream of bytes, read from front to back. No choice rejects more than `patience`
draws before it settles for the one it has. -/
structure Entropy where
  byte : Nat → UInt8
  position : Nat
  patience : Nat

namespace Entropy

instance : Inhabited Entropy := ⟨⟨fun _ => 0, 0, 0⟩⟩

def take (count : Nat) (e : Entropy) : Bytes × Entropy :=
  ((List.range count).map fun i => e.byte (e.position + i),
    { e with position := e.position + count })

def block (size : Nat) (e : Entropy) : Block size × Entropy :=
  (⟨(e.take size).1, by simp [take]⟩, (e.take size).2)

/-- A draw below `range` by the high half of a product with `size` random bytes, repeated while the
low half is above `zone`. -/
def draw (size range zone : Nat) : Nat → Entropy → Nat × Entropy
  | rejections, e =>
    let (bytes, e) := e.take size
    let product := Bytes.toNatLE bytes * range
    let high := product / (1 <<< (8 * size))
    match rejections with
    | 0 => (high, e)
    | rejections + 1 =>
      if product % (1 <<< (8 * size)) ≤ zone then (high, e) else draw size range zone rejections e

/-- A number below `range`, each equally likely, for a range between 1 and `2 ^ 64 - 1`; one that
four bytes do not hold takes eight bytes for each draw. -/
def below (range : Nat) (e : Entropy) : Nat × Entropy :=
  let size := if range < UInt32.size then 4 else 8
  let width := range.log2 + 1
  draw size range ((range <<< (8 * size - width)) - 1) e.patience e

/-- Exchanges each of the places from `count` down to 1 with a random one not above it. -/
def shuffleFrom {α : Type} : Nat → Array α → Entropy → Array α × Entropy
  | 0, xs, e => (xs, e)
  | count + 1, xs, e =>
    let (j, e) := e.below (count + 2)
    shuffleFrom count (xs.swapIfInBounds (count + 1) j) e

def shuffle {α : Type} (xs : List α) (e : Entropy) : List α × Entropy :=
  let (ys, e) := shuffleFrom (xs.length - 1) xs.toArray e
  (ys.toList, e)

def seededByte (seed : UInt64) (k : Nat) : UInt8 :=
  let z := seed + UInt64.ofNat (k / 8 + 1) * 0x9e3779b97f4a7c15
  let z := (z ^^^ (z >>> 30)) * 0xbf58476d1ce4e5b9
  let z := (z ^^^ (z >>> 27)) * 0x94d049bb133111eb
  let z := z ^^^ (z >>> 31)
  (z >>> UInt64.ofNat (8 * (k % 8))).toUInt8

/-- The stream that begins with the given bytes and goes on as a seed determines. -/
def ofSeed (lead : Bytes) (seed : UInt64) : Entropy :=
  let known := lead.toArray
  { byte := fun k => if h : k < known.size then known[k] else seededByte seed (k - known.size)
    position := 0
    patience := known.size + 1024 }

end Entropy

end BeaconMesh
