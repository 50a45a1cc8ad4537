import BeaconMesh.Crypto.Sealed
import BeaconMesh.Proofs.Bytes.Layout

/-!
What was sealed is revealed under the same key, nonce and associated data: the stream cipher is
its own inverse, and the tag that is found is the tag that is computed.
-/

set_option autoImplicit false
set_option relaxedAutoImplicit false

namespace BeaconMesh.Crypto

namespace ChaCha20

@[simp] theorem length_block (key nonce : Bytes) (counter : UInt32) :
    (block key nonce counter).length = 64 := by
  simp [block, Grid.toBytes, Grid.toWords, Lanes.toWords, bytesOfWord]

@[simp] theorem length_keystream (key nonce : Bytes) (count : Nat) (counter : UInt32) :
    (keystream key nonce count counter).length = 64 * count := by
  induction count generalizing counter with
  | zero => rfl
  | succ count ih =>
    rw [keystream, List.length_append, length_block, ih]
    omega

private theorem length_le_keystream (key nonce text : Bytes) :
    text.length ≤ (keystream key nonce ((text.length + 63) / 64) 1).length := by
  rw [length_keystream]
  omega

@[simp] theorem length_crypt (key nonce text : Bytes) :
    (crypt key nonce text).length = text.length := by
  have h := length_le_keystream key nonce text
  simp only [crypt, Bytes.length_xor]
  omega

@[simp] theorem crypt_crypt (key nonce text : Bytes) :
    crypt key nonce (crypt key nonce text) = text := by
  rw [crypt, length_crypt]
  exact Bytes.xor_xor_cancel text _ (length_le_keystream key nonce text)

end ChaCha20

namespace Sealed

@[simp] theorem length_tagOf (key nonce associated cipher : Bytes) :
    (tagOf key nonce associated cipher).length = 16 := by
  simp [tagOf, Poly1305.tag]

@[simp] theorem length_close (key nonce associated text : Bytes) :
    (close key nonce associated text).length = text.length + 16 := by
  simp [close]

/-- Revealing undoes sealing. -/
@[simp] theorem reveal_close (key nonce associated text : Bytes) :
    reveal key nonce associated (close key nonce associated text) = some text := by
  have hlong : 16 ≤ (close key nonce associated text).length := by
    rw [length_close]
    omega
  have hcut : (close key nonce associated text).length - 16
      = (ChaCha20.crypt key nonce text).length := by
    simp
  have hcipher : (close key nonce associated text).take (ChaCha20.crypt key nonce text).length
      = ChaCha20.crypt key nonce text := List.take_left
  have hgiven : (close key nonce associated text).drop (ChaCha20.crypt key nonce text).length
      = tagOf key nonce associated (ChaCha20.crypt key nonce text) := List.drop_left
  simp only [reveal, hcut, hcipher, hgiven, and_true]
  rw [if_pos hlong, ChaCha20.crypt_crypt]

end Sealed

end BeaconMesh.Crypto
