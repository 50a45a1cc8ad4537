/-!
Byte strings and the numbers they stand for: fixed-width little- and big-endian forms, the
encoding of text, the pairing of bytes by exclusive or, and blocks, whose length is fixed by their
type.
-/

set_option autoImplicit false
set_option relaxedAutoImplicit false

namespace BeaconMesh

abbrev Bytes := List UInt8

namespace Bytes

def ofNatLE : Nat → Nat → Bytes
  | 0, _ => []
  | width + 1, n => UInt8.ofNat (n % 256) :: ofNatLE width (n / 256)

def ofNatBE (width n : Nat) : Bytes := (ofNatLE width n).reverse

def toNatLE : Bytes → Nat
  | [] => 0
  | b :: bs => b.toNat + 256 * toNatLE bs

def toNatBE (bs : Bytes) : Nat := toNatLE bs.reverse

def ofChars (cs : List Char) : Bytes := cs.flatMap String.utf8EncodeChar

def ofString (s : String) : Bytes := ofChars s.toList

/-- Exclusive or, byte by byte, as long as both strings last. -/
def xor (a b : Bytes) : Bytes := List.zipWith (· ^^^ ·) a b

/-- The string followed by the zero bytes that make its length a multiple of `size`. -/
def padTo (size : Nat) (bs : Bytes) : Bytes :=
  bs ++ List.replicate ((size - bs.length % size) % size) 0

def piecesUpTo (size : Nat) : Nat → Bytes → List Bytes
  | 0, _ => []
  | _ + 1, [] => []
  | count + 1, bs => bs.take size :: piecesUpTo size count (bs.drop size)

/-- The consecutive pieces of `size` bytes, the last one possibly shorter. -/
def pieces (size : Nat) (bs : Bytes) : List Bytes := piecesUpTo size bs.length bs

@[simp] theorem length_ofNatLE (width n : Nat) : (ofNatLE width n).length = width := by
  induction width generalizing n with
  | zero => rfl
  | succ width ih => simp [ofNatLE, ih]

@[simp] theorem length_ofNatBE (width n : Nat) : (ofNatBE width n).length = width := by
  simp [ofNatBE]

end Bytes

/-- A byte string of exactly `size` bytes. -/
structure Block (size : Nat) where
  bytes : Bytes
  length_bytes : bytes.length = size
  deriving DecidableEq

namespace Block

def ofBytes? (size : Nat) (bs : Bytes) : Option (Block size) :=
  if h : bs.length = size then some ⟨bs, h⟩ else none

/-- The first `size` bytes, followed by zero bytes where there are too few. -/
def leading (size : Nat) (bs : Bytes) : Block size :=
  ⟨bs.take size ++ List.replicate (size - bs.length) 0, by
    rw [List.length_append, List.length_take, List.length_replicate]
    omega⟩

def zero (size : Nat) : Block size := ⟨List.replicate size 0, List.length_replicate⟩

instance (size : Nat) : Inhabited (Block size) := ⟨zero size⟩

end Block

end BeaconMesh
