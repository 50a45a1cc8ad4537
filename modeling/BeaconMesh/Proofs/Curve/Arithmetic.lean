import BeaconMesh.Curve.Edwards
import BeaconMesh.Proofs.Curve.Prime
import Mathlib.FieldTheory.Finite.Basic
import Mathlib.Tactic.LinearCombination

/-!
The field of the curve as the integers modulo its prime: sums, products and powers are those of
residues, a square root is one, and the denominator that occurs when a point is read is never zero.
-/

set_option autoImplicit false
set_option relaxedAutoImplicit false

namespace BeaconMesh.Curve

namespace Field

def residue (a : Field) : ZMod prime := (a.val : ZMod prime)

theorem residue_injective : Function.Injective residue := by
  intro a b h
  apply Fin.ext
  have hmod := (ZMod.natCast_eq_natCast_iff' a.val b.val prime).mp h
  rwa [Nat.mod_eq_of_lt a.isLt, Nat.mod_eq_of_lt b.isLt] at hmod

@[simp] theorem residue_zero : residue 0 = 0 := Nat.cast_zero

@[simp] theorem residue_one : residue 1 = 1 := Nat.cast_one

@[simp] theorem residue_two : residue 2 = 2 := by
  show ((2 : Nat) : ZMod prime) = 2
  norm_num

@[simp] theorem residue_add (a b : Field) : residue (a + b) = residue a + residue b := by
  rw [residue, Fin.val_add, ZMod.natCast_mod, Nat.cast_add]
  rfl

@[simp] theorem residue_mul (a b : Field) : residue (a * b) = residue a * residue b := by
  rw [residue, Fin.val_mul, ZMod.natCast_mod, Nat.cast_mul]
  rfl

@[simp] theorem residue_sub (a b : Field) : residue (a - b) = residue a - residue b := by
  have hb := b.isLt
  rw [residue, Fin.sub_def, ZMod.natCast_mod, Nat.cast_add, Nat.cast_sub hb.le,
    ZMod.natCast_self, zero_sub, neg_add_eq_sub]
  rfl

theorem residue_powBits (width : Nat) (a : Field) (exponent : Nat) (h : exponent < 2 ^ width) :
    residue (powBits width a exponent) = residue a ^ exponent := by
  induction width generalizing a exponent with
  | zero =>
    obtain rfl : exponent = 0 := by simpa using h
    rw [powBits, residue_one, pow_zero]
  | succ width ih =>
    have hhalf : exponent / 2 < 2 ^ width := by
      rw [pow_succ] at h
      omega
    have hhigh : residue (powBits width (a * a) (exponent / 2))
        = residue a ^ (2 * (exponent / 2)) := by
      rw [ih _ _ hhalf, residue_mul, ← pow_two, ← pow_mul]
    rw [powBits]
    split
    · rename_i hodd
      have hexponent : exponent = 2 * (exponent / 2) + 1 := by omega
      rw [residue_mul, hhigh, ← pow_succ', ← hexponent]
    · rename_i heven
      have hexponent : exponent = 2 * (exponent / 2) := by omega
      rw [hhigh, ← hexponent]

theorem residue_pow (a : Field) {exponent : Nat} (h : exponent < 2 ^ 255) :
    residue (pow a exponent) = residue a ^ exponent := residue_powBits 255 a exponent h

theorem eq_zero_of_inv {a : Field} (h : inv a = 0) : a = 0 := by
  have hpow : residue a ^ (prime - 2) = 0 := by
    rw [← residue_pow a (by decide), ← inv, h, residue_zero]
  apply residue_injective
  rw [residue_zero]
  exact pow_eq_zero_iff (by decide) |>.mp hpow

theorem eq_zero_or_eq_zero {a b : Field} (h : a * b = 0) : a = 0 ∨ b = 0 := by
  have hresidue : residue a * residue b = 0 := by rw [← residue_mul, h, residue_zero]
  rcases mul_eq_zero.mp hresidue with ha | hb
  · exact .inl (residue_injective (ha.trans residue_zero.symm))
  · exact .inr (residue_injective (hb.trans residue_zero.symm))

private theorem two_residue_ne_zero : (2 : ZMod prime) ≠ 0 := by
  rw [← residue_two, ← residue_zero]
  exact residue_injective.ne (by decide)

theorem eq_zero_of_neg_self {a : Field} (h : 0 - a = a) : a = 0 := by
  have hresidue : 2 * residue a = 0 := by
    have hneg := congrArg residue h
    rw [residue_sub, residue_zero] at hneg
    linear_combination -hneg
  apply residue_injective
  rw [residue_zero]
  exact (mul_eq_zero.mp hresidue).resolve_left two_residue_ne_zero

theorem mul_self_of_sqrt? {a r : Field} (h : sqrt? a = some r) : r * r = a := by
  have heven : ∀ c : Field, (if c.val % 2 = 1 then 0 - c else c)
      * (if c.val % 2 = 1 then 0 - c else c) = c * c := by
    intro c
    split
    · apply residue_injective
      rw [residue_mul, residue_mul, residue_sub, residue_zero]
      ring
    · rfl
  unfold sqrt? at h
  dsimp only at h
  split at h
  · rename_i hsquare
    rw [← Option.some.inj h, heven, hsquare]
  · split at h
    · rename_i hsquare
      rw [← Option.some.inj h, heven, hsquare]
    · cases h

private theorem pow_coefficient : pow coefficient ((prime - 1) / 2) = 0 - 1 := by
  decide +kernel

/-- The coefficient of the curve is no square, and minus one is: the denominator for `x` is never
zero. -/
theorem denominator_ne_zero (y : Field) : coefficient * y * y + 1 ≠ 0 := by
  intro h
  have hsum : residue coefficient * residue y ^ 2 = -1 := by
    have hzero := congrArg residue h
    simp only [residue_add, residue_mul, residue_one, residue_zero] at hzero
    linear_combination hzero
  have hy : residue y ≠ 0 := by
    intro hy
    rw [hy] at hsum
    apply neg_ne_zero.mpr (one_ne_zero (α := ZMod prime))
    rw [← hsum]
    ring
  have hcoefficient : residue coefficient ^ ((prime - 1) / 2) = -1 := by
    rw [← residue_pow coefficient (by decide), pow_coefficient, residue_sub, residue_zero,
      residue_one, zero_sub]
  have hfermat : (residue y ^ 2) ^ ((prime - 1) / 2) = 1 := by
    rw [← pow_mul]
    exact ZMod.pow_card_sub_one_eq_one hy
  have hpower := congrArg (· ^ ((prime - 1) / 2)) hsum
  simp only [mul_pow, hcoefficient, hfermat] at hpower
  have heven : Even ((prime - 1) / 2) := by decide
  rw [heven.neg_one_pow] at hpower
  apply two_residue_ne_zero
  linear_combination -hpower

end Field

end BeaconMesh.Curve
