import BeaconMesh.Text.Numeral
import Mathlib.Data.List.Forall2
import Mathlib.Data.Nat.Digits.Lemmas

/-!
Numerals: which texts stand for a number in a radix up to sixteen, that exactly these are read, and
that what is written for a number stands for it.
-/

set_option autoImplicit false
set_option relaxedAutoImplicit false

namespace BeaconMesh.Text

def lowerCase : List Char :=
  ['0', '1', '2', '3', '4', '5', '6', '7', '8', '9', 'a', 'b', 'c', 'd', 'e', 'f']

def upperCase : List Char :=
  ['0', '1', '2', '3', '4', '5', '6', '7', '8', '9', 'A', 'B', 'C', 'D', 'E', 'F']

/-- The character is the digit `d`, in either case. -/
def IsDigit (radix : Nat) (c : Char) (d : Nat) : Prop :=
  d < radix ∧ (lowerCase[d]? = some c ∨ upperCase[d]? = some c)

/-- The characters are one digit or more, with any number of leading zeros, of a number. -/
def Spells (radix : Nat) (cs : List Char) (n : Nat) : Prop :=
  ∃ ds, ds ≠ [] ∧ List.Forall₂ (IsDigit radix) cs ds ∧ Nat.ofDigits radix ds.reverse = n

/-- The characters are the digits of a number, perhaps after a plus sign. -/
def IsNumeral (radix : Nat) (cs : List Char) (n : Nat) : Prop :=
  Spells radix cs n ∨ ∃ rest, cs = '+' :: rest ∧ Spells radix rest n

variable {radix bound n m d : Nat} {c : Char} {cs : List Char}

section Digit

private theorem lowerCase_ofNat : ∀ d : Fin 16,
    lowerCase[d.val]? = some (Char.ofNat (if d.val < 10 then 48 + d.val else 87 + d.val)) := by
  decide

private theorem upperCase_ofNat : ∀ d : Fin 16,
    upperCase[d.val]? = some (Char.ofNat (if d.val < 10 then 48 + d.val else 55 + d.val)) := by
  decide

private theorem digitValue?_lowerCase : ∀ d : Fin 16,
    lowerCase[d.val]?.bind (digitValue? 16) = some d.val := by
  decide

private theorem digitValue?_upperCase : ∀ d : Fin 16,
    upperCase[d.val]?.bind (digitValue? 16) = some d.val := by
  decide

private theorem digitValue?_of_lt (h : digitValue? 16 c = some d) (hlt : d < radix) :
    digitValue? radix c = some d :=
  Option.filter_eq_some_iff.mpr ⟨(Option.filter_eq_some_iff.mp h).1, by simpa using hlt⟩

private theorem toNat_of_digitValue? (h : digitValue? radix c = some d) :
    d < radix ∧ (c.toNat = 48 + d ∧ d < 10 ∨ 10 ≤ d ∧ (c.toNat = 87 + d ∨ c.toNat = 55 + d)) := by
  obtain ⟨hvalue, hlt⟩ := Option.filter_eq_some_iff.mp h
  refine ⟨by simpa using hlt, ?_⟩
  split at hvalue
  · have hd := Option.some.inj hvalue
    omega
  · split at hvalue
    · have hd := Option.some.inj hvalue
      omega
    · split at hvalue
      · have hd := Option.some.inj hvalue
        omega
      · cases hvalue

theorem digitValue?_eq_some_iff (hradix : radix ≤ 16) :
    digitValue? radix c = some d ↔ IsDigit radix c d := by
  constructor
  · intro h
    obtain ⟨hlt, hplace⟩ := toNat_of_digitValue? h
    have hlower := lowerCase_ofNat ⟨d, by omega⟩
    have hupper := upperCase_ofNat ⟨d, by omega⟩
    refine ⟨hlt, ?_⟩
    rcases hplace with ⟨hnumber, hten⟩ | ⟨hten, hnumber | hnumber⟩
    · left
      rw [hlower, if_pos hten, ← hnumber, Char.ofNat_toNat]
    · left
      rw [hlower, if_neg (Nat.not_lt.mpr hten), ← hnumber, Char.ofNat_toNat]
    · right
      rw [hupper, if_neg (Nat.not_lt.mpr hten), ← hnumber, Char.ofNat_toNat]
  · rintro ⟨hlt, hlower | hupper⟩
    · have hvalue := digitValue?_lowerCase ⟨d, by omega⟩
      rw [hlower, Option.bind_some] at hvalue
      exact digitValue?_of_lt hvalue hlt
    · have hvalue := digitValue?_upperCase ⟨d, by omega⟩
      rw [hupper, Option.bind_some] at hvalue
      exact digitValue?_of_lt hvalue hlt

theorem isDigit_digitChar (hradix : radix ≤ 16) (h : d < radix) :
    IsDigit radix (digitChar d) d := by
  refine ⟨h, .inl ?_⟩
  rw [lowerCase_ofNat ⟨d, by omega⟩, digitChar, apply_ite Char.ofNat]

theorem not_isDigit_of_not_mem (h : c ∉ lowerCase ++ upperCase) : ¬ IsDigit radix c d := by
  rintro ⟨-, hlower | hupper⟩
  · exact h (List.mem_append_left _ (List.mem_of_getElem? hlower))
  · exact h (List.mem_append_right _ (List.mem_of_getElem? hupper))

theorem exists_isDigit_iff : (∃ d, IsDigit 16 c d) ↔ c ∈ lowerCase ++ upperCase := by
  constructor
  · rintro ⟨d, hdigit⟩
    by_contra hnone
    exact not_isDigit_of_not_mem hnone hdigit
  · intro hmem
    rcases List.mem_append.mp hmem with hlower | hupper
    · obtain ⟨d, hlt, hc⟩ := List.mem_iff_getElem.mp hlower
      exact ⟨d, hlt, .inl (List.getElem?_eq_some_iff.mpr ⟨hlt, hc⟩)⟩
    · obtain ⟨d, hlt, hc⟩ := List.mem_iff_getElem.mp hupper
      exact ⟨d, hlt, .inr (List.getElem?_eq_some_iff.mpr ⟨hlt, hc⟩)⟩

private theorem toLower_lowerCase : ∀ d : Fin 16,
    lowerCase[d.val]?.map Char.toLower = some (digitChar d.val) := by
  decide

private theorem toLower_upperCase : ∀ d : Fin 16,
    upperCase[d.val]?.map Char.toLower = some (digitChar d.val) := by
  decide

theorem toLower_of_isDigit (hradix : radix ≤ 16) (h : IsDigit radix c d) :
    c.toLower = digitChar d := by
  obtain ⟨hlt, hlower | hupper⟩ := h
  · have hcase := toLower_lowerCase ⟨d, by omega⟩
    simpa only [hlower, Option.map_some, Option.some.injEq] using hcase
  · have hcase := toLower_upperCase ⟨d, by omega⟩
    simpa only [hupper, Option.map_some, Option.some.injEq] using hcase

private theorem toNat_digitChar_lt_fin : ∀ m n : Fin 16,
    (digitChar m.val).toNat < (digitChar n.val).toNat ↔ m.val < n.val := by
  decide

theorem toNat_digitChar_lt_iff (hm : m < 16) (hn : n < 16) :
    (digitChar m).toNat < (digitChar n).toNat ↔ m < n :=
  toNat_digitChar_lt_fin ⟨m, hm⟩ ⟨n, hn⟩

end Digit

section Reading

private def extend (radix n : Nat) (ds : List Nat) : Nat := ds.foldl (fun n d => n * radix + d) n

private theorem extend_zero (ds : List Nat) :
    extend radix 0 ds = Nat.ofDigits radix ds.reverse := by
  rw [extend, Nat.ofDigits_eq_foldr, List.foldr_reverse]
  simp only [Nat.cast_id, Nat.mul_comm, Nat.add_comm]

private theorem le_extend {ds : List Nat} (h : ∀ d ∈ ds, d < radix) : n ≤ extend radix n ds := by
  induction ds generalizing n with
  | nil => exact Nat.le_refl n
  | cons d ds ih =>
    have hradix : 0 < radix := Nat.zero_lt_of_lt (h d List.mem_cons_self)
    calc
      n ≤ n * radix + d := (Nat.le_mul_of_pos_right n hradix).trans (Nat.le_add_right _ _)
      _ ≤ extend radix (n * radix + d) ds := ih fun e he => h e (List.mem_cons_of_mem d he)

private theorem lt_of_mem_digits {ds : List Nat} (h : List.Forall₂ (IsDigit radix) cs ds) :
    ∀ d ∈ ds, d < radix := by
  induction h with
  | nil => simp
  | cons hdigit _ ih =>
    intro d hd
    rcases List.mem_cons.mp hd with rfl | hd
    · exact hdigit.1
    · exact ih d hd

private theorem digits_cons_iff {ds : List Nat} (hradix : radix ≤ 16)
    (hd : digitValue? radix c = some d) :
    List.Forall₂ (IsDigit radix) (c :: cs) ds ↔
      ∃ rest, ds = d :: rest ∧ List.Forall₂ (IsDigit radix) cs rest := by
  constructor
  · rintro (_ | ⟨hdigit, hrest⟩)
    rw [(digitValue?_eq_some_iff hradix).mpr hdigit] at hd
    obtain rfl := Option.some.inj hd
    exact ⟨_, rfl, hrest⟩
  · rintro ⟨rest, rfl, hrest⟩
    exact .cons ((digitValue?_eq_some_iff hradix).mp hd) hrest

private theorem readDigits_eq_ok_iff (hradix : radix ≤ 16) (hstart : n ≤ bound) :
    readDigits radix bound n cs = .ok m ↔
      ∃ ds, List.Forall₂ (IsDigit radix) cs ds ∧ extend radix n ds = m ∧ m ≤ bound := by
  induction cs generalizing n with
  | nil =>
    constructor
    · intro h
      obtain rfl := Except.ok.inj h
      exact ⟨[], .nil, rfl, hstart⟩
    · rintro ⟨ds, hdigits, rfl, -⟩
      cases hdigits
      rfl
  | cons c cs ih =>
    rw [readDigits]
    split
    · rename_i hnone
      constructor
      · intro h
        cases h
      · rintro ⟨ds, hdigits, -, -⟩
        cases hdigits with
        | cons hdigit _ =>
          rw [(digitValue?_eq_some_iff hradix).mpr hdigit] at hnone
          cases hnone
    · rename_i d hd
      split
      · rename_i hlarge
        constructor
        · intro h
          cases h
        · rintro ⟨ds, hdigits, rfl, hbound⟩
          obtain ⟨rest, rfl, hrest⟩ := (digits_cons_iff hradix hd).mp hdigits
          have hle : n * radix + d ≤ extend radix (n * radix + d) rest :=
            le_extend (lt_of_mem_digits hrest)
          exact absurd (hle.trans hbound) (Nat.not_le.mpr hlarge)
      · rename_i hsmall
        rw [ih (Nat.not_lt.mp hsmall)]
        constructor
        · rintro ⟨rest, hrest, hvalue⟩
          exact ⟨d :: rest, (digits_cons_iff hradix hd).mpr ⟨rest, rfl, hrest⟩, hvalue⟩
        · rintro ⟨ds, hdigits, hvalue⟩
          obtain ⟨rest, rfl, hrest⟩ := (digits_cons_iff hradix hd).mp hdigits
          exact ⟨rest, hrest, hvalue⟩

theorem readDigits_eq_ok_iff_spells (hradix : radix ≤ 16) (hne : cs ≠ []) :
    readDigits radix bound 0 cs = .ok n ↔ Spells radix cs n ∧ n ≤ bound := by
  rw [readDigits_eq_ok_iff hradix (Nat.zero_le bound)]
  constructor
  · rintro ⟨ds, hdigits, hvalue, hbound⟩
    refine ⟨⟨ds, ?_, hdigits, by rw [← extend_zero, hvalue]⟩, hbound⟩
    rintro rfl
    cases hdigits
    exact hne rfl
  · rintro ⟨⟨ds, -, hdigits, hvalue⟩, hbound⟩
    exact ⟨ds, hdigits, by rw [extend_zero, hvalue], hbound⟩

theorem not_spells_nil : ¬ Spells radix [] n := by
  rintro ⟨ds, hne, hdigits, -⟩
  cases hdigits
  exact hne rfl

theorem not_spells_plus : ¬ Spells radix ('+' :: cs) n := by
  rintro ⟨ds, -, hdigits, -⟩
  cases hdigits with
  | cons hdigit _ => exact not_isDigit_of_not_mem (by decide) hdigit

theorem Spells.not_mem (h : Spells radix cs n) (hc : c ∉ lowerCase ++ upperCase) : c ∉ cs := by
  obtain ⟨ds, -, hdigits, -⟩ := h
  induction hdigits with
  | nil => simp
  | cons hdigit _ ih =>
    rintro (_ | ⟨_, hmem⟩)
    · exact not_isDigit_of_not_mem hc hdigit
    · exact ih hmem

/-- Exactly the numerals of the numbers within the bound are read, each as its number. -/
theorem readNumber_eq_ok_iff (hradix : radix ≤ 16) :
    readNumber radix bound cs = .ok n ↔ IsNumeral radix cs n ∧ n ≤ bound := by
  rw [IsNumeral]
  unfold readNumber
  split
  · simp [not_spells_nil]
  · simp [not_spells_plus, not_spells_nil]
  · rename_i rest hrest
    rw [readDigits_eq_ok_iff_spells hradix hrest]
    simp [not_spells_plus]
  · rename_i hnil _ hplus
    rw [readDigits_eq_ok_iff_spells hradix hnil]
    have hno : ¬ ∃ rest, cs = '+' :: rest ∧ Spells radix rest n := by
      rintro ⟨rest, rfl, -⟩
      exact hplus rest rfl
    rw [or_iff_left hno]

end Reading

section Writing

private theorem exists_spells_digitsOnto (hlow : 2 ≤ radix) (hradix : radix ≤ 16) {fuel : Nat}
    (hfuel : n < fuel) (rest : List Char) :
    ∃ cs, digitsOnto radix fuel n rest = cs ++ rest ∧ Spells radix cs n := by
  induction fuel generalizing n rest with
  | zero => omega
  | succ fuel ih =>
    have hlast := isDigit_digitChar hradix (Nat.mod_lt n (by omega : radix > 0))
    rw [digitsOnto]
    split
    · rename_i hzero
      have hsmall : n % radix = n := by
        rw [← Nat.mod_add_div n radix, hzero]
        simp
      exact ⟨[digitChar (n % radix)], rfl, [n % radix], by simp, .cons hlast .nil,
        by simp [hsmall]⟩
    · rename_i hmore
      have hless : n / radix < fuel := by
        have hpos : 0 < n := Nat.pos_of_ne_zero fun h => hmore (by rw [h, Nat.zero_div])
        have hquotient := Nat.div_lt_self hpos hlow
        omega
      obtain ⟨cs, hwritten, ds, -, hdigits, hvalue⟩ := ih hless (digitChar (n % radix) :: rest)
      refine ⟨cs ++ [digitChar (n % radix)], ?_, ds ++ [n % radix], by simp, ?_, ?_⟩
      · rw [hwritten, List.append_assoc]
        rfl
      · exact List.rel_append hdigits (.cons hlast .nil)
      · rw [List.reverse_append, List.reverse_singleton, List.singleton_append,
          Nat.ofDigits_cons, hvalue]
        exact Nat.mod_add_div n radix

theorem spells_digits (hlow : 2 ≤ radix) (hradix : radix ≤ 16) (n : Nat) :
    Spells radix (digits radix n) n := by
  obtain ⟨cs, hwritten, hspells⟩ :=
    exists_spells_digitsOnto hlow hradix (Nat.lt_succ_self n) []
  rw [digits, hwritten, List.append_nil]
  exact hspells

theorem not_mem_digits (hlow : 2 ≤ radix) (hradix : radix ≤ 16) (hc : c ∉ lowerCase ++ upperCase)
    (n : Nat) : c ∉ digits radix n :=
  (spells_digits hlow hradix n).not_mem hc

theorem readNumber_digits (hlow : 2 ≤ radix) (hradix : radix ≤ 16) (hbound : n ≤ bound) :
    readNumber radix bound (digits radix n) = .ok n :=
  (readNumber_eq_ok_iff hradix).mpr ⟨.inl (spells_digits hlow hradix n), hbound⟩

theorem digits_injective (hlow : 2 ≤ radix) (hradix : radix ≤ 16) :
    Function.Injective (digits radix) := by
  intro m n h
  have hm := readNumber_digits hlow hradix (Nat.le_max_left m n)
  have hn := readNumber_digits hlow hradix (Nat.le_max_right m n)
  rw [h] at hm
  exact Except.ok.inj (hm.symm.trans hn)

end Writing

section Places

/-- The values of the digits that are written for a number, the highest first. -/
def places (radix n : Nat) : List Nat := if n = 0 then [0] else (Nat.digits radix n).reverse

private theorem digitsOnto_eq_map (hlow : 2 ≤ radix) {fuel : Nat} (hpos : 0 < n) (hfuel : n < fuel)
    (rest : List Char) :
    digitsOnto radix fuel n rest = (Nat.digits radix n).reverse.map digitChar ++ rest := by
  induction fuel generalizing n rest with
  | zero => omega
  | succ fuel ih =>
    rw [digitsOnto, Nat.digits_def' hlow hpos, List.reverse_cons, List.map_append,
      List.append_assoc]
    split
    · rename_i hzero
      simp [hzero]
    · rename_i hmore
      have hless : n / radix < fuel := (Nat.div_lt_self hpos hlow).trans_le (by omega)
      rw [ih (Nat.pos_of_ne_zero hmore) hless]
      rfl

theorem digits_eq_map_places (hlow : 2 ≤ radix) :
    digits radix n = (places radix n).map digitChar := by
  rw [places]
  split
  · rename_i hzero
    simp [hzero, digits, digitsOnto]
  · rename_i hpos
    rw [digits, digitsOnto_eq_map hlow (Nat.pos_of_ne_zero hpos) (Nat.lt_succ_self n),
      List.append_nil]

theorem places_ne_nil : places radix n ≠ [] := by
  rw [places]
  split
  · simp
  · rename_i hpos
    simpa [Nat.digits_ne_nil_iff_ne_zero] using hpos

theorem lt_of_mem_places (hlow : 2 ≤ radix) (h : d ∈ places radix n) : d < radix := by
  rw [places] at h
  split at h
  · rw [List.mem_singleton] at h
    omega
  · exact Nat.digits_lt_base hlow (List.mem_reverse.mp h)

theorem ofDigits_places : Nat.ofDigits radix (places radix n).reverse = n := by
  rw [places]
  split
  · rename_i hzero
    simp [hzero]
  · rw [List.reverse_reverse, Nat.ofDigits_digits]

theorem length_places_le (hlow : 2 ≤ radix) {width : Nat} (hwidth : 0 < width)
    (h : n < radix ^ width) : (places radix n).length ≤ width := by
  rw [places]
  split
  · exact hwidth
  · rw [List.length_reverse]
    exact (Nat.digits_length_le_iff hlow n).mpr h

theorem foldl_places : (places radix n).foldl (fun n d => n * radix + d) 0 = n := by
  calc extend radix 0 (places radix n)
    _ = Nat.ofDigits radix (places radix n).reverse := extend_zero _
    _ = n := ofDigits_places

theorem eq_zero_of_head?_places (h : (places radix n).head? = some 0) : n = 0 := by
  rw [places] at h
  split at h
  · assumption
  · rename_i hpos
    rw [List.head?_reverse, List.getLast?_eq_some_getLast (Nat.digits_ne_nil_iff_ne_zero.mpr hpos),
      Option.some.injEq] at h
    exact absurd h (Nat.getLast_digit_ne_zero radix hpos)

end Places

end BeaconMesh.Text
