import BeaconMesh.Bytes.Basic
import Mathlib.Algebra.Group.Nat.Defs

/-!
What is written at fixed places is read back from them: numbers of a fixed width, the pieces of a
string that was put together from pieces of one size, and the first bytes of a string as a block.
-/

set_option autoImplicit false
set_option relaxedAutoImplicit false

namespace BeaconMesh

namespace Bytes

@[simp] theorem toNatLE_ofNatLE (width n : Nat) : toNatLE (ofNatLE width n) = n % 256 ^ width := by
  induction width generalizing n with
  | zero => simp [ofNatLE, toNatLE, Nat.mod_one]
  | succ width ih =>
    have hbyte : (UInt8.ofNat (n % 256)).toNat = n % 256 := by
      rw [UInt8.toNat_ofNat']
      omega
    calc
      toNatLE (ofNatLE (width + 1) n)
          = (UInt8.ofNat (n % 256)).toNat + 256 * toNatLE (ofNatLE width (n / 256)) := rfl
      _ = n % 256 + 256 * (n / 256 % 256 ^ width) := by rw [hbyte, ih]
      _ = n % (256 * 256 ^ width) := Nat.mod_mul.symm
      _ = n % 256 ^ (width + 1) := by rw [Nat.pow_succ, Nat.mul_comm]

@[simp] theorem toNatBE_ofNatBE (width n : Nat) : toNatBE (ofNatBE width n) = n % 256 ^ width := by
  rw [toNatBE, ofNatBE, List.reverse_reverse, toNatLE_ofNatLE]

@[simp] theorem ofNat_toNatBE_ofNatBE (w : UInt64) :
    UInt64.ofNat (toNatBE (ofNatBE 8 w.toNat)) = w := by
  have hlt : w.toNat < 256 ^ 8 := w.toNat_lt
  rw [toNatBE_ofNatBE, Nat.mod_eq_of_lt hlt, UInt64.ofNat_toNat]

theorem toNatLE_lt (bs : Bytes) : toNatLE bs < 256 ^ bs.length := by
  induction bs with
  | nil => exact Nat.one_pos
  | cons b bs ih =>
    have hb := b.toNat_lt
    rw [toNatLE, List.length_cons, Nat.pow_succ]
    omega

@[simp] theorem ofNatLE_toNatLE (bs : Bytes) : ofNatLE bs.length (toNatLE bs) = bs := by
  induction bs with
  | nil => rfl
  | cons b bs ih =>
    have hb := b.toNat_lt
    have hlow : (b.toNat + 256 * toNatLE bs) % 256 = b.toNat := by omega
    have hhigh : (b.toNat + 256 * toNatLE bs) / 256 = toNatLE bs := by omega
    rw [toNatLE, List.length_cons, ofNatLE, hlow, hhigh, ih, UInt8.ofNat_toNat]

@[simp] theorem length_xor (a b : Bytes) : (xor a b).length = min a.length b.length := by
  simp [xor]

theorem xor_xor_cancel (text key : Bytes) (h : text.length ≤ key.length) :
    xor (xor text key) key = text := by
  induction text generalizing key with
  | nil => simp [xor]
  | cons b text ih =>
    cases key with
    | nil => simp at h
    | cons k key =>
      simp only [List.length_cons, Nat.add_le_add_iff_right] at h
      have hbyte : b ^^^ k ^^^ k = b := by
        rw [UInt8.xor_assoc, UInt8.xor_self, UInt8.xor_zero]
      show (b ^^^ k ^^^ k) :: xor (xor text key) key = b :: text
      rw [hbyte, ih key h]

private theorem piecesUpTo_flatten {size : Nat} (hsize : 0 < size) (count : Nat)
    (rs : List Bytes) (hlength : ∀ r ∈ rs, r.length = size) (hcount : rs.length ≤ count) :
    piecesUpTo size count rs.flatten = rs := by
  induction rs generalizing count with
  | nil => cases count <;> rfl
  | cons r rs ih =>
    have hr : r.length = size := hlength r List.mem_cons_self
    have hrest := fun s hs => hlength s (List.mem_cons_of_mem r hs)
    obtain ⟨b, bs, rfl⟩ := List.exists_cons_of_length_pos (hr ▸ hsize)
    cases count with
    | zero => simp at hcount
    | succ count =>
      have hle : rs.length ≤ count := by simpa using hcount
      simp only [List.flatten_cons, List.cons_append, piecesUpTo]
      rw [← List.cons_append, ← hr, List.take_left, List.drop_left, hr, ih count hrest hle]

theorem length_flatten_pieces {size : Nat} (rs : List Bytes)
    (hlength : ∀ r ∈ rs, r.length = size) : rs.flatten.length = size * rs.length := by
  induction rs with
  | nil => rfl
  | cons r rs ih =>
    rw [List.flatten_cons, List.length_append, hlength r List.mem_cons_self,
      ih fun s hs => hlength s (List.mem_cons_of_mem r hs), List.length_cons, Nat.mul_succ,
      Nat.add_comm]

theorem pieces_flatten {size : Nat} (hsize : 0 < size) (rs : List Bytes)
    (hlength : ∀ r ∈ rs, r.length = size) : pieces size rs.flatten = rs := by
  have hcount : rs.length ≤ rs.flatten.length := by
    rw [length_flatten_pieces rs hlength]
    exact Nat.le_mul_of_pos_left rs.length hsize
  exact piecesUpTo_flatten hsize _ rs hlength hcount

end Bytes

namespace Block

variable {size : Nat}

theorem ext {a b : Block size} (h : a.bytes = b.bytes) : a = b := by
  cases a
  cases b
  simpa using h

@[simp] theorem leading_append (b : Block size) (rest : Bytes) :
    leading size (b.bytes ++ rest) = b := by
  apply ext
  have htake : (b.bytes ++ rest).take size = b.bytes :=
    List.take_left' b.length_bytes
  have hfill : size - (b.bytes ++ rest).length = 0 := by
    rw [List.length_append, b.length_bytes]
    omega
  simp only [leading, htake, hfill, List.replicate_zero, List.append_nil]

@[simp] theorem leading_bytes (b : Block size) : leading size b.bytes = b := by
  simpa using leading_append b []

end Block

end BeaconMesh
