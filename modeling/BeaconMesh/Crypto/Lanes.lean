import BeaconMesh.Bytes.Basic

/-!
Sixteen 32-bit words in four rows of four, the working state that the stream cipher and the
hash function share. A column step works on all four columns at once; turning the rows by one,
two and three places makes a diagonal step out of it.
-/

set_option autoImplicit false
set_option relaxedAutoImplicit false

namespace BeaconMesh.Crypto

/-- The word turned left by `count` bits, for a count between 1 and 31. -/
def rotateLeft (w : UInt32) (count : UInt32) : UInt32 :=
  (w <<< count) ||| (w >>> (32 - count))

structure Lanes where
  w0 : UInt32
  w1 : UInt32
  w2 : UInt32
  w3 : UInt32
  deriving DecidableEq, Repr, Inhabited

namespace Lanes

def zip (f : UInt32 → UInt32 → UInt32) (a b : Lanes) : Lanes :=
  ⟨f a.w0 b.w0, f a.w1 b.w1, f a.w2 b.w2, f a.w3 b.w3⟩

def add (a b : Lanes) : Lanes := zip (· + ·) a b

def xor (a b : Lanes) : Lanes := zip (· ^^^ ·) a b

def rotate (count : UInt32) (a : Lanes) : Lanes :=
  ⟨rotateLeft a.w0 count, rotateLeft a.w1 count, rotateLeft a.w2 count, rotateLeft a.w3 count⟩

/-- Moves every word one column to the left, the first one to the end. -/
def turn (a : Lanes) : Lanes := ⟨a.w1, a.w2, a.w3, a.w0⟩

def ofWords (ws : List UInt32) : Lanes :=
  ⟨ws.getD 0 0, ws.getD 1 0, ws.getD 2 0, ws.getD 3 0⟩

def toWords (a : Lanes) : List UInt32 := [a.w0, a.w1, a.w2, a.w3]

end Lanes

/-- The 32-bit words of a byte string, each from four bytes with the least significant first. -/
def wordsOfBytes : Bytes → List UInt32
  | b0 :: b1 :: b2 :: b3 :: rest =>
    (b0.toUInt32 ||| (b1.toUInt32 <<< 8) ||| (b2.toUInt32 <<< 16) ||| (b3.toUInt32 <<< 24))
      :: wordsOfBytes rest
  | _ => []

def bytesOfWord (w : UInt32) : Bytes :=
  [w.toUInt8, (w >>> 8).toUInt8, (w >>> 16).toUInt8, (w >>> 24).toUInt8]

structure Grid where
  a : Lanes
  b : Lanes
  c : Lanes
  d : Lanes
  deriving DecidableEq, Repr, Inhabited

namespace Grid

/-- The first sixteen words of a list, row by row. -/
def ofWords (ws : List UInt32) : Grid :=
  ⟨Lanes.ofWords ws, Lanes.ofWords (ws.drop 4), Lanes.ofWords (ws.drop 8),
    Lanes.ofWords (ws.drop 12)⟩

def ofBytes (bs : Bytes) : Grid := ofWords (wordsOfBytes bs)

def toWords (g : Grid) : List UInt32 :=
  g.a.toWords ++ g.b.toWords ++ g.c.toWords ++ g.d.toWords

def toBytes (g : Grid) : Bytes := g.toWords.flatMap bytesOfWord

def add (g h : Grid) : Grid := ⟨g.a.add h.a, g.b.add h.b, g.c.add h.c, g.d.add h.d⟩

def diagonalize (g : Grid) : Grid := ⟨g.a, g.b.turn, g.c.turn.turn, g.d.turn.turn.turn⟩

def undiagonalize (g : Grid) : Grid := ⟨g.a, g.b.turn.turn.turn, g.c.turn.turn, g.d.turn⟩

end Grid

end BeaconMesh.Crypto
