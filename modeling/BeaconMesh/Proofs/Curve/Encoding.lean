import BeaconMesh.Key
import BeaconMesh.Proofs.Bytes.Layout
import BeaconMesh.Proofs.Curve.Arithmetic

/-!
Which encodings belong to the same point. An encoding tells `y`, written below `2 ^ 255`, and a
sign. Points with `x = 0` have small order, so the sign of an accepted encoding is told by its
point; but `y` is told up to a multiple of the prime, so a point whose `y` is below 19 has two
encodings.
-/

set_option autoImplicit false
set_option relaxedAutoImplicit false

namespace BeaconMesh

namespace Curve.Point

open Curve.Field

private theorem double_axis {s z : Field} (h : s * s = z * z) :
    double ⟨0, s, z, 0⟩ = ⟨0, z * 2 * z * (z * 2 * z), z * 2 * z * (z * 2 * z), 0⟩ := by
  have hresidue : residue s * residue s = residue z * residue z := by
    rw [← residue_mul, h, residue_mul]
  rw [double, add, mk.injEq]
  refine ⟨?_, ?_, ?_, ?_⟩
  all_goals
    apply residue_injective
    simp only [residue_mul, residue_add, residue_sub, residue_zero, residue_two]
  · ring
  · linear_combination 4 * residue z * residue z * hresidue
  · ring
  · ring

theorem hasSmallOrder_of_axis {y : Field} (h : y * y = 1) :
    (ofAffine 0 y).hasSmallOrder = true := by
  have haffine : ofAffine 0 y = ⟨0, y, 1, 0⟩ := by
    rw [ofAffine, mk.injEq]
    refine ⟨rfl, rfl, rfl, ?_⟩
    apply residue_injective
    rw [residue_mul, residue_zero, zero_mul]
  have hunit : (1 : Field) * 1 = 1 := by decide
  rw [hasSmallOrder, haffine, double_axis (h.trans hunit.symm), double_axis rfl, double_axis rfl,
    isNeutral]
  simp

/-- The number in which an encoding tells `y`. -/
def writtenY (bytes : Bytes) : Nat := Bytes.toNatLE bytes % (1 <<< 255)

def sign (bytes : Bytes) : Nat := Bytes.toNatLE bytes / (1 <<< 255) % 2

/-- An encoding that tells `y` by the number below the prime. -/
def Canonical (bytes : Bytes) : Prop := writtenY bytes < prime

instance (bytes : Bytes) : Decidable (Canonical bytes) :=
  inferInstanceAs (Decidable (writtenY bytes < prime))

theorem decode?_eq_some {bytes : Bytes} {p : Point} (h : decode? bytes = some p) :
    p.y = encodedY bytes ∧ ∃ x,
      sqrt? ((p.y * p.y - 1) * inv (coefficient * p.y * p.y + 1)) = some x ∧
      p = ofAffine (if sign bytes = 1 then 0 - x else x) p.y := by
  unfold decode? at h
  dsimp only at h
  split at h
  · cases h
  · rename_i x hx
    obtain rfl := Option.some.inj h
    exact ⟨rfl, x, hx, rfl⟩

private theorem hasSmallOrder_of_root_zero {y : Field}
    (h : sqrt? ((y * y - 1) * inv (coefficient * y * y + 1)) = some 0) :
    (ofAffine 0 y).hasSmallOrder = true := by
  have hsquare := mul_self_of_sqrt? h
  have hzero : (0 : Field) * 0 = 0 := by decide
  rw [hzero] at hsquare
  apply hasSmallOrder_of_axis
  apply residue_injective
  rcases eq_zero_or_eq_zero hsquare.symm with hone | hinverse
  · have hdifference := congrArg residue hone
    rw [residue_sub, residue_zero] at hdifference
    exact sub_eq_zero.mp hdifference
  · exact absurd (eq_zero_of_inv hinverse) (denominator_ne_zero y)

theorem sign_eq_of_decode? {a b : Bytes} {p : Point} (ha : decode? a = some p)
    (hb : decode? b = some p) (hp : p.hasSmallOrder = false) : sign a = sign b := by
  obtain ⟨-, x, hx, hpa⟩ := decode?_eq_some ha
  obtain ⟨-, x', hx', hpb⟩ := decode?_eq_some hb
  obtain rfl : x = x' := Option.some.inj (hx.symm.trans hx')
  have hne : x ≠ 0 := by
    rintro rfl
    have hneg : (0 : Field) - 0 = 0 := by decide
    rw [hneg, ite_self] at hpa
    rw [hpa, hasSmallOrder_of_root_zero hx] at hp
    cases hp
  have hsame := congrArg Point.x (hpa.symm.trans hpb)
  have hbit : ∀ bytes : Bytes, sign bytes = 0 ∨ sign bytes = 1 := fun bytes =>
    Nat.mod_two_eq_zero_or_one _
  rcases hbit a with h | h <;> rcases hbit b with h' | h'
  · rw [h, h']
  · rw [h, h'] at hsame
    exact absurd (eq_zero_of_neg_self hsame.symm) hne
  · rw [h, h'] at hsame
    exact absurd (eq_zero_of_neg_self hsame) hne
  · rw [h, h']

theorem encodedY_eq_iff {a b : Bytes} :
    encodedY a = encodedY b ↔ writtenY a % prime = writtenY b % prime :=
  Fin.ext_iff

theorem decode?_congr {a b : Bytes} (hsign : sign a = sign b)
    (hy : writtenY a % prime = writtenY b % prime) : decode? a = decode? b := by
  have hencoded := encodedY_eq_iff.mpr hy
  change Bytes.toNatLE a / (1 <<< 255) % 2 = Bytes.toNatLE b / (1 <<< 255) % 2 at hsign
  unfold decode?
  rw [hencoded, hsign]

/-- Two encodings of points that are not of small order belong to the same point just when they
tell the same sign and, modulo the prime, the same `y`. -/
theorem decode?_eq_iff {a b : Bytes} {p q : Point} (ha : decode? a = some p)
    (hb : decode? b = some q) (hp : p.hasSmallOrder = false) :
    p = q ↔ sign a = sign b ∧ writtenY a % prime = writtenY b % prime := by
  constructor
  · rintro rfl
    have hy := (decode?_eq_some ha).1.symm.trans (decode?_eq_some hb).1
    exact ⟨sign_eq_of_decode? ha hb hp, encodedY_eq_iff.mp hy⟩
  · rintro ⟨hsign, hy⟩
    have hsame := decode?_congr hsign hy
    rw [ha, hb] at hsame
    exact Option.some.inj hsame

section Reduction

variable {a b : Bytes}

private theorem capacity : 256 ^ 32 = (1 <<< 255) * 2 := by decide

private theorem prime_lt : prime < 1 <<< 255 := by decide

theorem sign_lt (b : Bytes) : sign b < 2 := Nat.mod_lt _ (by decide)

theorem toNatLE_eq (h : b.length = 32) :
    Bytes.toNatLE b = writtenY b + (1 <<< 255) * sign b := by
  have hlt : Bytes.toNatLE b < (1 <<< 255) * 2 := by
    rw [← capacity, ← h]
    exact Bytes.toNatLE_lt b
  have hhigh : Bytes.toNatLE b / (1 <<< 255) < 2 := Nat.div_lt_of_lt_mul hlt
  rw [writtenY, sign, Nat.mod_eq_of_lt hhigh, Nat.mod_add_div]

section Telling

variable {y s : Nat} (hy : y < prime) (hs : s < 2)

include hy hs

private theorem toNatLE_telling :
    Bytes.toNatLE (Bytes.ofNatLE 32 (y + (1 <<< 255) * s)) = y + (1 <<< 255) * s := by
  have hlt : y + (1 <<< 255) * s < (1 <<< 255) * 2 := by
    have hhalf : (1 <<< 255) * s ≤ (1 <<< 255) * 1 :=
      Nat.mul_le_mul_left _ (Nat.le_of_lt_succ hs)
    have hbound := hy.trans prime_lt
    generalize 1 <<< 255 = half at *
    omega
  rw [Bytes.toNatLE_ofNatLE, capacity, Nat.mod_eq_of_lt hlt]

private theorem writtenY_telling : writtenY (Bytes.ofNatLE 32 (y + (1 <<< 255) * s)) = y := by
  rw [writtenY, toNatLE_telling hy hs, Nat.add_mul_mod_self_left,
    Nat.mod_eq_of_lt (hy.trans prime_lt)]

private theorem sign_telling : sign (Bytes.ofNatLE 32 (y + (1 <<< 255) * s)) = s := by
  have hhigh := Nat.add_mul_div_left y s (show 0 < 1 <<< 255 by decide)
  rw [Nat.div_eq_of_lt (hy.trans prime_lt), Nat.zero_add] at hhigh
  rw [sign, toNatLE_telling hy hs, hhigh, Nat.mod_eq_of_lt hs]

end Telling

theorem bytes_eq_of_written (ha : a.length = 32) (hb : b.length = 32) (hsign : sign a = sign b)
    (hy : writtenY a = writtenY b) : a = b := by
  have hnumber : Bytes.toNatLE a = Bytes.toNatLE b := by
    rw [toNatLE_eq ha, toNatLE_eq hb, hsign, hy]
  rw [← Bytes.ofNatLE_toNatLE a, ← Bytes.ofNatLE_toNatLE b, ha, hb, hnumber]

/-- The encoding that says the same with a `y` below the prime. -/
def reduced (bytes : Bytes) : Block 32 :=
  ⟨Bytes.ofNatLE 32 (writtenY bytes % prime + (1 <<< 255) * sign bytes), Bytes.length_ofNatLE _ _⟩

@[simp] theorem writtenY_reduced (b : Bytes) : writtenY (reduced b).bytes = writtenY b % prime :=
  writtenY_telling (Nat.mod_lt _ (by decide)) (sign_lt b)

@[simp] theorem sign_reduced (b : Bytes) : sign (reduced b).bytes = sign b :=
  sign_telling (Nat.mod_lt _ (by decide)) (sign_lt b)

theorem canonical_reduced (b : Bytes) : Canonical (reduced b).bytes := by
  rw [Canonical, writtenY_reduced]
  exact Nat.mod_lt _ (by decide)

@[simp] theorem decode?_reduced (b : Bytes) : decode? (reduced b).bytes = decode? b := by
  apply decode?_congr (sign_reduced b)
  rw [writtenY_reduced, Nat.mod_mod]

theorem reduced_eq_iff :
    reduced a = reduced b ↔ sign a = sign b ∧ writtenY a % prime = writtenY b % prime := by
  constructor
  · intro h
    rw [← sign_reduced a, ← writtenY_reduced a, h, sign_reduced, writtenY_reduced]
    exact ⟨rfl, rfl⟩
  · rintro ⟨hsign, hy⟩
    simp only [reduced, hsign, hy]

theorem reduced_bytes_eq_iff (h : b.length = 32) : (reduced b).bytes = b ↔ Canonical b := by
  constructor
  · intro heq
    rw [← heq]
    exact canonical_reduced b
  · intro hcanonical
    apply bytes_eq_of_written (reduced b).length_bytes h (sign_reduced b)
    rw [writtenY_reduced, Nat.mod_eq_of_lt hcanonical]

theorem canonical_encode (p : Point) : Canonical p.encode.bytes := by
  have hy := (p.y * inv p.z).isLt
  rw [Canonical, encode, writtenY_telling hy (Nat.mod_lt _ (by decide))]
  exact hy

/-- Two encodings of one sign, the first telling a `y` below 19 and the second that `y` plus the
prime. -/
def Twins (a b : Bytes) : Prop := sign a = sign b ∧ writtenY b = writtenY a + prime

instance (a b : Bytes) : Decidable (Twins a b) :=
  inferInstanceAs (Decidable (sign a = sign b ∧ writtenY b = writtenY a + prime))

private theorem writtenY_cases (b : Bytes) :
    writtenY b = writtenY b % prime ∨ writtenY b = writtenY b % prime + prime := by
  have hlt : writtenY b < 1 <<< 255 := Nat.mod_lt _ (by decide)
  have htwice : 1 <<< 255 ≤ 2 * prime := by decide
  have hquotient : writtenY b / prime < 2 :=
    Nat.div_lt_of_lt_mul (by rw [Nat.mul_comm]; exact hlt.trans_le htwice)
  have hsplit := Nat.mod_add_div (writtenY b) prime
  rcases Nat.lt_succ_iff_lt_or_eq.mp hquotient with hzero | hone
  · rw [Nat.lt_one_iff.mp hzero] at hsplit
    exact .inl hsplit.symm
  · rw [hone, Nat.mul_one] at hsplit
    exact .inr hsplit.symm

theorem eq_or_twins_iff (ha : a.length = 32) (hb : b.length = 32) :
    a = b ∨ Twins a b ∨ Twins b a ↔ sign a = sign b ∧ writtenY a % prime = writtenY b % prime := by
  constructor
  · rintro (rfl | ⟨hsign, hy⟩ | ⟨hsign, hy⟩)
    · exact ⟨rfl, rfl⟩
    · exact ⟨hsign, by rw [hy, Nat.add_mod_right]⟩
    · exact ⟨hsign.symm, by rw [hy, Nat.add_mod_right]⟩
  · rintro ⟨hsign, hy⟩
    rcases writtenY_cases a with hlow | hhigh <;> rcases writtenY_cases b with hlow' | hhigh'
    · exact .inl (bytes_eq_of_written ha hb hsign (by rw [hlow, hlow', hy]))
    · exact .inr (.inl ⟨hsign, by rw [hhigh', hlow, hy]⟩)
    · exact .inr (.inr ⟨hsign.symm, by rw [hhigh, hlow', hy]⟩)
    · exact .inl (bytes_eq_of_written ha hb hsign (by rw [hhigh, hhigh', hy]))

end Reduction

end Curve.Point

end BeaconMesh
