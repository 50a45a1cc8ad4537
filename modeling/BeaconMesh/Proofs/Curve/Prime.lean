import BeaconMesh.Curve.Edwards
import Mathlib.Data.List.Prime
import Mathlib.NumberTheory.LucasPrimality
import Mathlib.Tactic.NormNum.Prime

/-!
The modulus of the field is prime. Lucas's test shows it: a number is prime if some base has just
the order that it has in the group of units of a prime field, which is known once the prime factors
of the number before it are; for the large ones among these the test is applied again.
-/

set_option autoImplicit false
set_option relaxedAutoImplicit false

namespace BeaconMesh.Curve

def powerModulo (m : Nat) : Nat → Nat → Nat → Nat
  | 0, _, _ => 1 % m
  | width + 1, a, exponent =>
    let high := powerModulo m width (a * a % m) (exponent / 2)
    if exponent % 2 = 1 then a * high % m else high

theorem powerModulo_eq (m width a exponent : Nat) (h : exponent < 2 ^ width) :
    powerModulo m width a exponent = a ^ exponent % m := by
  induction width generalizing a exponent with
  | zero =>
    obtain rfl : exponent = 0 := by simpa using h
    rfl
  | succ width ih =>
    have hhalf : exponent / 2 < 2 ^ width := by
      rw [Nat.pow_succ] at h
      omega
    have hhigh : powerModulo m width (a * a % m) (exponent / 2)
        = a ^ (2 * (exponent / 2)) % m := by
      rw [ih _ _ hhalf, ← Nat.pow_mod, ← Nat.pow_two, ← Nat.pow_mul]
    rw [powerModulo, hhigh]
    split
    · rename_i hodd
      have hexponent : exponent = 2 * (exponent / 2) + 1 := by omega
      rw [Nat.mul_mod_mod, Nat.mul_comm, ← Nat.pow_add_one, ← hexponent]
    · rename_i heven
      have hexponent : exponent = 2 * (exponent / 2) := by omega
      rw [← hexponent]

/-- Lucas's test with the prime factors of the number before, each as often as it occurs. -/
theorem prime_of_factors {n : Nat} (base : Nat) (factors : List Nat) (hn : 2 ≤ n)
    (hwidth : n ≤ 2 ^ 256) (hfactors : ∀ q ∈ factors, q.Prime) (hproduct : factors.prod = n - 1)
    (hwhole : powerModulo n 256 base (n - 1) = 1)
    (hparts : ∀ q ∈ factors, powerModulo n 256 base ((n - 1) / q) ≠ 1) : n.Prime := by
  have hone : ∀ exponent, exponent ≤ n - 1 →
      ((base : ZMod n) ^ exponent = 1 ↔ powerModulo n 256 base exponent = 1) := by
    intro exponent hexponent
    have hsmall : exponent < 2 ^ 256 := by omega
    have hunit : 1 % n = 1 := Nat.mod_eq_of_lt hn
    rw [powerModulo_eq _ _ _ _ hsmall, ← Nat.cast_pow, ← Nat.cast_one,
      ZMod.natCast_eq_natCast_iff', hunit]
  apply lucas_primality n (base : ZMod n)
  · exact (hone (n - 1) (Nat.le_refl _)).mpr hwhole
  · intro q hq hdvd
    have hmem : q ∈ factors := by
      rw [← hproduct] at hdvd
      exact mem_list_primes_of_dvd_prod hq.prime (fun r hr => (hfactors r hr).prime) hdvd
    rw [ne_eq, hone _ (Nat.div_le_self _ _)]
    exact hparts q hmem

private theorem prime_2773320623 : Nat.Prime 2773320623 :=
  prime_of_factors 5 [2, 2437, 569003] (by decide) (by decide) (by norm_num) (by decide)
    (by decide +kernel) (by decide +kernel)

private theorem prime_72106336199 : Nat.Prime 72106336199 :=
  prime_of_factors 7 [2, 13, 2773320623] (by decide) (by decide)
    (by
      simp only [List.forall_mem_cons, prime_2773320623, true_and]
      norm_num) (by decide) (by decide +kernel) (by decide +kernel)

private theorem prime_1919519569386763 : Nat.Prime 1919519569386763 :=
  prime_of_factors 2 [2, 3, 7, 19, 47, 47, 127, 8574133] (by decide) (by decide)
    (by norm_num) (by decide) (by decide +kernel) (by decide +kernel)

private theorem prime_31757755568855353 : Nat.Prime 31757755568855353 :=
  prime_of_factors 10 [2, 2, 2, 3, 31, 107, 223, 4153, 430751] (by decide) (by decide)
    (by norm_num) (by decide) (by decide +kernel) (by decide +kernel)

private theorem prime_75445702479781427272750846543864801 :
    Nat.Prime 75445702479781427272750846543864801 :=
  prime_of_factors 7
    [2, 2, 2, 2, 2, 3, 3, 5, 5, 75707, 72106336199, 1919519569386763] (by decide) (by decide)
    (by
      simp only [List.forall_mem_cons, prime_72106336199, prime_1919519569386763, true_and]
      norm_num) (by decide)
    (by decide +kernel) (by decide +kernel)

private theorem prime_quarter :
    Nat.Prime 74058212732561358302231226437062788676166966415465897661863160754340907 :=
  prime_of_factors 2
    [2, 3, 353, 57467, 132049, 1923133, 31757755568855353, 75445702479781427272750846543864801]
    (by decide) (by decide)
    (by
      simp only [List.forall_mem_cons, prime_31757755568855353,
        prime_75445702479781427272750846543864801, true_and]
      norm_num) (by decide)
    (by decide +kernel) (by decide +kernel)

theorem prime_prime : Nat.Prime prime :=
  prime_of_factors 2
    [2, 2, 3, 65147, 74058212732561358302231226437062788676166966415465897661863160754340907]
    (by decide) (by decide) (by
      simp only [List.forall_mem_cons, prime_quarter, true_and]
      norm_num) (by decide)
    (by decide +kernel) (by decide +kernel)

instance : Fact (Nat.Prime prime) := ⟨prime_prime⟩

end BeaconMesh.Curve
