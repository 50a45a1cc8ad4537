import BeaconMesh.Bytes.Basic
import BeaconMesh.Crypto.Lanes

/-!
Authenticated encryption with associated data. The text is combined with the keystream of ChaCha20,
a stream cipher with a 256-bit key, a 96-bit nonce and a 32-bit block counter. Behind it stands a
16-byte tag over the associated data and the ciphertext, by Poly1305: a polynomial in a secret point
modulo `2 ^ 130 - 5`, masked by a second secret.
-/

set_option autoImplicit false
set_option relaxedAutoImplicit false

namespace BeaconMesh.Crypto

namespace ChaCha20

/-- The quarter round, on the four columns at once. -/
def columnStep (g : Grid) : Grid :=
  let a := g.a.add g.b
  let d := (g.d.xor a).rotate 16
  let c := g.c.add d
  let b := (g.b.xor c).rotate 12
  let a := a.add b
  let d := (d.xor a).rotate 8
  let c := c.add d
  let b := (b.xor c).rotate 7
  ⟨a, b, c, d⟩

def doubleRound (g : Grid) : Grid :=
  (columnStep (columnStep g).diagonalize).undiagonalize

def doubleRounds : Nat → Grid → Grid
  | 0, g => g
  | count + 1, g => doubleRounds count (doubleRound g)

def initial (key nonce : Bytes) (counter : UInt32) : Grid :=
  let words := wordsOfBytes key
  let tail := wordsOfBytes nonce
  ⟨⟨0x61707865, 0x3320646e, 0x79622d32, 0x6b206574⟩, Lanes.ofWords words,
    Lanes.ofWords (words.drop 4), Lanes.ofWords (counter :: tail)⟩

def block (key nonce : Bytes) (counter : UInt32) : Bytes :=
  let start := initial key nonce counter
  ((doubleRounds 10 start).add start).toBytes

def keystream (key nonce : Bytes) : Nat → UInt32 → Bytes
  | 0, _ => []
  | count + 1, counter => block key nonce counter ++ keystream key nonce count (counter + 1)

/-- The text combined with the keystream from block 1 on; applying it twice gives the text back. -/
def crypt (key nonce text : Bytes) : Bytes :=
  Bytes.xor text (keystream key nonce ((text.length + 63) / 64) 1)

end ChaCha20

namespace Poly1305

def modulus : Nat := (1 <<< 130) - 5

/-- The evaluation point, with the bits that must be zero cleared. -/
def clamp (r : Nat) : Nat := r &&& 0x0ffffffc0ffffffc0ffffffc0fffffff

/-- The number of a piece of message: its bytes with a one bit set above them. -/
def pieceValue (piece : Bytes) : Nat := Bytes.toNatLE (piece ++ [1])

def evaluate (r : Nat) (ps : List Bytes) : Nat :=
  ps.foldl (fun acc piece => (acc + pieceValue piece) * r % modulus) 0

def tag (key message : Bytes) : Bytes :=
  let r := clamp (Bytes.toNatLE (key.take 16))
  let s := Bytes.toNatLE (key.drop 16)
  Bytes.ofNatLE 16 (evaluate r (Bytes.pieces 16 message) + s)

end Poly1305

namespace Sealed

/-- What the tag is computed over: both strings padded to whole pieces, then both lengths. -/
def authenticated (associated cipher : Bytes) : Bytes :=
  Bytes.padTo 16 associated ++ Bytes.padTo 16 cipher ++
    Bytes.ofNatLE 8 associated.length ++ Bytes.ofNatLE 8 cipher.length

/-- The tag of a ciphertext; its one-time key is the start of keystream block 0. -/
def tagOf (key nonce associated cipher : Bytes) : Bytes :=
  Poly1305.tag ((ChaCha20.block key nonce 0).take 32) (authenticated associated cipher)

def close (key nonce associated text : Bytes) : Bytes :=
  let cipher := ChaCha20.crypt key nonce text
  cipher ++ tagOf key nonce associated cipher

def reveal (key nonce associated sealed : Bytes) : Option Bytes :=
  let cipher := sealed.take (sealed.length - 16)
  let given := sealed.drop (sealed.length - 16)
  if 16 ≤ sealed.length ∧ given = tagOf key nonce associated cipher then
    some (ChaCha20.crypt key nonce cipher)
  else none

end Sealed

end BeaconMesh.Crypto
