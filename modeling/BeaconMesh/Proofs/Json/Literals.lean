import BeaconMesh.Json.Parse
import BeaconMesh.Proofs.Text.Numeral
import Mathlib.Data.List.TakeWhile

/-!
The strings and the numbers of JSON: which characters may stand between the quotes of a string and
which make a number, that exactly these are taken from the front of a text, and that an escaped text
is such an inside which stands for the text.
-/

set_option autoImplicit false
set_option relaxedAutoImplicit false

namespace BeaconMesh.Json

variable {cs ds rest taken : List Char} {p : Char → Bool}

section Strings

/-- What may stand between the quotes of a string: characters that need no escape, escapes of one
letter, and escapes of four hexadecimal digits. -/
inductive Inside : List Char → Prop
  | nil : Inside []
  | plain {c : Char} {cs : List Char} (hcontrol : 0x20 ≤ c.toNat) (hquote : c ≠ '"')
      (hslash : c ≠ '\\') (hrest : Inside cs) : Inside (c :: cs)
  | short {c : Char} {cs : List Char} (hc : (shortEscape? c).isSome) (hrest : Inside cs) :
      Inside ('\\' :: c :: cs)
  | unit {a b c d : Char} {cs : List Char} (hunit : (unitValue? a b c d).isSome)
      (hrest : Inside cs) : Inside ('\\' :: 'u' :: a :: b :: c :: d :: cs)

private theorem ne_u_of_short {c : Char} (hc : (shortEscape? c).isSome) : c ≠ 'u' := by
  rintro rfl
  exact absurd hc (by decide)

private theorem scanString_plain {c : Char} (hcontrol : 0x20 ≤ c.toNat) (hquote : c ≠ '"')
    (hslash : c ≠ '\\') :
    scanString (c :: cs) = (scanString cs).map fun (inside, rest) => (c :: inside, rest) := by
  rw [scanString, if_neg (by simp [hslash, hcontrol])]
  · exact hquote
  · exact fun _ _ _ _ _ h _ => hslash h
  · exact fun _ _ h _ => hslash h

private theorem scanString_short {c : Char} (hc : (shortEscape? c).isSome) :
    scanString ('\\' :: c :: cs)
      = (scanString cs).map fun (inside, rest) => ('\\' :: c :: inside, rest) := by
  rw [scanString, if_pos hc]
  exact fun _ _ _ _ _ h _ => ne_u_of_short hc h

theorem scanString_inside (h : Inside taken) (rest : List Char) :
    scanString (taken ++ '"' :: rest) = some (taken, rest) := by
  induction h with
  | nil => rfl
  | plain hcontrol hquote hslash _ ih =>
    rw [List.cons_append, scanString_plain hcontrol hquote hslash, ih]
    rfl
  | short hc _ ih =>
    rw [List.cons_append, List.cons_append, scanString_short hc, ih]
    rfl
  | unit hunit _ ih =>
    simp only [List.cons_append]
    rw [scanString, if_pos hunit, ih]
    rfl

theorem inside_of_scanString (h : scanString cs = some (taken, rest)) :
    cs = taken ++ '"' :: rest ∧ Inside taken := by
  fun_induction scanString cs generalizing taken rest with
  | case1 => cases h
  | case2 =>
    cases h
    exact ⟨rfl, .nil⟩
  | case3 a b c d cs hunit ih =>
    obtain ⟨⟨inside, rest⟩, hrest, heq⟩ := Option.map_eq_some_iff.mp h
    cases heq
    obtain ⟨rfl, hinside⟩ := ih hrest
    exact ⟨rfl, .unit hunit hinside⟩
  | case4 => cases h
  | case5 c cs _ hc ih =>
    obtain ⟨⟨inside, rest⟩, hrest, heq⟩ := Option.map_eq_some_iff.mp h
    cases heq
    obtain ⟨rfl, hinside⟩ := ih hrest
    exact ⟨rfl, .short hc hinside⟩
  | case6 => cases h
  | case7 => cases h
  | case8 c cs hquote _ _ hplain ih =>
    obtain ⟨⟨inside, rest⟩, hrest, heq⟩ := Option.map_eq_some_iff.mp h
    cases heq
    obtain ⟨rfl, hinside⟩ := ih hrest
    rw [not_or, Nat.not_lt] at hplain
    exact ⟨rfl, .plain hplain.1 hquote hplain.2 hinside⟩

end Strings

section Escaping

variable {c : Char}

private theorem unitValue?_unitDigits {n : Nat} (h : n < 0x20) :
    ∃ a b c d, unitDigits n = [a, b, c, d] ∧ unitValue? a b c d = some n := by
  have hall : ∀ n : Fin 0x20,
      unitValue? (Text.digitChar (n.val / 4096 % 16)) (Text.digitChar (n.val / 256 % 16))
        (Text.digitChar (n.val / 16 % 16)) (Text.digitChar (n.val % 16)) = some n.val := by
    decide
  exact ⟨_, _, _, _, rfl, hall ⟨n, h⟩⟩

private theorem escapeChar_cases (c : Char) :
    (∃ e, escapeChar c = ['\\', e] ∧ shortEscape? e = some c) ∨
    (c.toNat < 0x20 ∧ escapeChar c = '\\' :: 'u' :: unitDigits c.toNat) ∨
    (0x20 ≤ c.toNat ∧ c ≠ '"' ∧ c ≠ '\\' ∧ escapeChar c = [c]) := by
  unfold escapeChar
  split
  · rename_i h
    exact .inl ⟨c, rfl, by rcases h with rfl | rfl <;> rfl⟩
  split
  · exact .inl ⟨'b', rfl, by subst c; rfl⟩
  split
  · exact .inl ⟨'t', rfl, by subst c; rfl⟩
  split
  · exact .inl ⟨'n', rfl, by subst c; rfl⟩
  split
  · exact .inl ⟨'f', rfl, by subst c; rfl⟩
  split
  · exact .inl ⟨'r', rfl, by subst c; rfl⟩
  split
  · rename_i h
    exact .inr (.inl ⟨h, rfl⟩)
  · rename_i hquoted _ _ _ _ _ h
    rw [not_or] at hquoted
    exact .inr (.inr ⟨Nat.not_lt.mp h, hquoted.1, hquoted.2, rfl⟩)

theorem inside_escape (cs : List Char) : Inside (escape cs) := by
  induction cs with
  | nil => exact .nil
  | cons c cs ih =>
    rw [escape, List.flatMap_cons, ← escape]
    rcases escapeChar_cases c with ⟨e, hform, hshort⟩ | ⟨hcontrol, hform⟩ |
      ⟨hcontrol, hquote, hslash, hform⟩
    · rw [hform]
      exact .short (by rw [hshort]; rfl) ih
    · obtain ⟨a, b, c, d, hdigits, hvalue⟩ := unitValue?_unitDigits hcontrol
      rw [hform, hdigits]
      exact .unit (by rw [hvalue]; rfl) ih
    · rw [hform]
      exact .plain hcontrol hquote hslash ih

theorem inside_of_escape_eq (h : escape cs = cs) : Inside cs := h ▸ inside_escape cs

private theorem unescape_short {e : Char} (h : shortEscape? e = some c) :
    unescape ('\\' :: e :: cs) = (unescape cs).map (c :: ·) := by
  have hu : e ≠ 'u' := ne_u_of_short (by rw [h]; rfl)
  rw [unescape, h]
  exact fun _ _ _ _ _ hu' _ => hu hu'

private theorem unescape_plain (hslash : c ≠ '\\') :
    unescape (c :: cs) = (unescape cs).map (c :: ·) := by
  rw [unescape]
  · exact fun _ _ _ _ _ h _ => hslash h
  · exact fun _ _ h _ => hslash h

/-- An escaped text stands for the text. -/
theorem unescape_escape (cs : List Char) : unescape (escape cs) = some cs := by
  induction cs with
  | nil => rfl
  | cons c cs ih =>
    rw [escape, List.flatMap_cons, ← escape]
    rcases escapeChar_cases c with ⟨e, hform, hshort⟩ | ⟨hcontrol, hform⟩ | ⟨_, _, hslash, hform⟩
    · rw [hform, List.cons_append, List.singleton_append, unescape_short hshort, ih]
      rfl
    · obtain ⟨a, b, d, e, hdigits, hvalue⟩ := unitValue?_unitDigits hcontrol
      have hbelow : c.toNat < 0xd800 ∨ 0xdfff < c.toNat := by omega
      rw [hform, hdigits]
      simp only [List.cons_append, List.nil_append]
      rw [unescape, hvalue]
      simp only [hbelow, if_true, ih, Option.map_some, Char.ofNat_toNat]
    · rw [hform, List.singleton_append, unescape_plain hslash, ih]
      rfl

end Escaping

section Numbers

def AreDigits (ds : List Char) : Prop := ds ≠ [] ∧ ∀ c ∈ ds, c.isDigit

/-- The digits before a point: a zero alone, or digits that do not begin with one. -/
inductive Whole : List Char → Prop
  | zero : Whole ['0']
  | other {c : Char} {ds : List Char} (hc : c ≠ '0') (hdigits : AreDigits (c :: ds)) :
      Whole (c :: ds)

inductive Fraction : List Char → Prop
  | absent : Fraction []
  | present {ds : List Char} (hdigits : AreDigits ds) : Fraction ('.' :: ds)

inductive Exponent : List Char → Prop
  | absent : Exponent []
  | present {c : Char} {sign ds : List Char} (hc : c = 'e' ∨ c = 'E')
      (hsign : sign = [] ∨ sign = ['+'] ∨ sign = ['-']) (hdigits : AreDigits ds) :
      Exponent (c :: (sign ++ ds))

inductive Unsigned : List Char → Prop
  | mk {whole fraction exponent : List Char} (hwhole : Whole whole) (hfraction : Fraction fraction)
      (hexponent : Exponent exponent) : Unsigned (whole ++ fraction ++ exponent)

/-- The numbers of JSON, perhaps with a minus sign. -/
inductive Numeral : List Char → Prop
  | unsigned {cs : List Char} (h : Unsigned cs) : Numeral cs
  | negative {cs : List Char} (h : Unsigned cs) : Numeral ('-' :: cs)

def DigitFree (rest : List Char) : Prop := ∀ c ∈ rest.head?, c.isDigit = false

/-- The text does not go on with anything that could belong to a number. -/
def NumeralFree (rest : List Char) : Prop :=
  ∀ c ∈ rest.head?, c.isDigit = false ∧ c ≠ '.' ∧ c ≠ 'e' ∧ c ≠ 'E'

theorem NumeralFree.digitFree (h : NumeralFree rest) : DigitFree rest := fun c hc => (h c hc).1

private theorem takeWhile_of_digitFree (h : DigitFree rest) : rest.takeWhile Char.isDigit = [] := by
  cases rest with
  | nil => rfl
  | cons c rest => simp [h c rfl]

private theorem dropWhile_of_digitFree (h : DigitFree rest) :
    rest.dropWhile Char.isDigit = rest := by
  cases rest with
  | nil => rfl
  | cons c rest => simp [h c rfl]

private theorem scanDigits_append (h : AreDigits ds) (hrest : DigitFree rest) :
    scanDigits (ds ++ rest) = some (ds, rest) := by
  have htake : (ds ++ rest).takeWhile Char.isDigit = ds := by
    rw [List.takeWhile_append_of_pos h.2, takeWhile_of_digitFree hrest, List.append_nil]
  have hdrop : (ds ++ rest).dropWhile Char.isDigit = rest := by
    rw [List.dropWhile_append_of_pos h.2, dropWhile_of_digitFree hrest]
  have hne : ds.isEmpty = false := List.isEmpty_eq_false_iff.mpr h.1
  simp only [scanDigits, htake, hdrop, hne, Bool.false_eq_true, if_false]

private theorem areDigits_of_scanDigits (h : scanDigits cs = some (ds, rest)) :
    cs = ds ++ rest ∧ AreDigits ds := by
  simp only [scanDigits] at h
  split at h
  · cases h
  · rename_i hne
    cases h
    exact ⟨List.takeWhile_append_dropWhile.symm, by simpa using hne,
      fun c hc => (List.mem_takeWhile_imp hc)⟩

private theorem scanInteger_of_ne (h : ∀ rest, cs ≠ '0' :: rest) :
    scanInteger cs = scanDigits cs := by
  rw [scanInteger]
  exact h

private theorem scanInteger_append (h : Whole ds) (hrest : DigitFree rest) :
    scanInteger (ds ++ rest) = some (ds, rest) := by
  cases h with
  | zero =>
    rw [List.singleton_append, scanInteger, takeWhile_of_digitFree hrest]
    rfl
  | other hc hdigits =>
    rw [scanInteger_of_ne (by simp [hc]), scanDigits_append hdigits hrest]

private theorem whole_of_scanInteger (h : scanInteger cs = some (ds, rest)) :
    cs = ds ++ rest ∧ Whole ds := by
  by_cases hzero : ∃ rest, cs = '0' :: rest
  · obtain ⟨tail, rfl⟩ := hzero
    rw [scanInteger] at h
    split at h
    · cases h
      exact ⟨rfl, .zero⟩
    · cases h
  · rw [scanInteger_of_ne (fun rest hcs => hzero ⟨rest, hcs⟩)] at h
    obtain ⟨rfl, hdigits⟩ := areDigits_of_scanDigits h
    cases ds with
    | nil => exact absurd rfl hdigits.1
    | cons c ds => exact ⟨rfl, .other (fun hc => hzero ⟨ds ++ rest, by rw [hc]; rfl⟩) hdigits⟩

private theorem scanFraction_append (h : Fraction ds) (hrest : DigitFree rest)
    (hpoint : rest.head? ≠ some '.') : scanFraction (ds ++ rest) = some (ds, rest) := by
  cases h with
  | absent =>
    rw [List.nil_append, scanFraction]
    rintro tail rfl
    exact hpoint rfl
  | present hdigits =>
    rw [List.cons_append, scanFraction, scanDigits_append hdigits hrest]
    rfl

private theorem fraction_of_scanFraction (h : scanFraction cs = some (ds, rest)) :
    cs = ds ++ rest ∧ Fraction ds := by
  unfold scanFraction at h
  split at h
  · obtain ⟨⟨places, rest⟩, hplaces, heq⟩ := Option.map_eq_some_iff.mp h
    cases heq
    obtain ⟨rfl, hdigits⟩ := areDigits_of_scanDigits hplaces
    exact ⟨rfl, .present hdigits⟩
  · cases h
    exact ⟨rfl, .absent⟩

private theorem scanSign_append {sign : List Char}
    (h : sign = [] ∨ sign = ['+'] ∨ sign = ['-']) (hdigits : AreDigits ds) :
    scanSign (sign ++ (ds ++ rest)) = (sign, ds ++ rest) := by
  rcases h with rfl | rfl | rfl
  · cases ds with
    | nil => exact absurd rfl hdigits.1
    | cons c ds =>
      have hc : ¬ (c = '+' ∨ c = '-') := by
        rintro (rfl | rfl)
        · exact absurd (hdigits.2 '+' List.mem_cons_self) (by decide)
        · exact absurd (hdigits.2 '-' List.mem_cons_self) (by decide)
      simp [scanSign, hc]
  · rfl
  · rfl

private theorem sign_of_scanSign {sign : List Char} (h : scanSign cs = (sign, rest)) :
    cs = sign ++ rest ∧ (sign = [] ∨ sign = ['+'] ∨ sign = ['-']) := by
  unfold scanSign at h
  split at h
  · split at h
    · rename_i c _ hc
      cases h
      exact ⟨rfl, by rcases hc with rfl | rfl <;> simp⟩
    · cases h
      exact ⟨rfl, .inl rfl⟩
  · cases h
    exact ⟨rfl, .inl rfl⟩

private theorem scanExponent_append (h : Exponent ds) (hrest : NumeralFree rest) :
    scanExponent (ds ++ rest) = some (ds, rest) := by
  cases h with
  | absent =>
    cases rest with
    | nil => rfl
    | cons c rest =>
      obtain ⟨-, -, hlower, hupper⟩ := hrest c rfl
      simp [scanExponent, hlower, hupper]
  | present hc hsign hdigits =>
    rw [List.cons_append, List.append_assoc, scanExponent, if_pos hc, scanSign_append hsign hdigits]
    simp only [scanDigits_append hdigits hrest.digitFree, Option.map_some]

private theorem exponent_of_scanExponent (h : scanExponent cs = some (ds, rest)) :
    cs = ds ++ rest ∧ Exponent ds := by
  unfold scanExponent at h
  split at h
  · split at h
    · rename_i c tail hc
      obtain ⟨⟨power, rest⟩, hpower, heq⟩ := Option.map_eq_some_iff.mp h
      cases heq
      obtain ⟨htail, hsign⟩ := sign_of_scanSign (rfl : scanSign tail = _)
      obtain ⟨hrest, hdigits⟩ := areDigits_of_scanDigits hpower
      refine ⟨?_, .present hc hsign hdigits⟩
      rw [List.cons_append, List.append_assoc, ← hrest, ← htail]
    · cases h
      exact ⟨rfl, .absent⟩
  · cases h
    exact ⟨rfl, .absent⟩

private theorem digitFree_after {fraction exponent : List Char} (hfraction : Fraction fraction)
    (hexponent : Exponent exponent) (hrest : NumeralFree rest) :
    DigitFree (fraction ++ (exponent ++ rest)) ∧ DigitFree (exponent ++ rest) ∧
      (exponent ++ rest).head? ≠ some '.' := by
  have hlast : DigitFree (exponent ++ rest) ∧ (exponent ++ rest).head? ≠ some '.' := by
    cases hexponent with
    | absent => exact ⟨hrest.digitFree, fun h => (hrest '.' h).2.1 rfl⟩
    | present hc _ _ => rcases hc with rfl | rfl <;> simp [DigitFree]
  refine ⟨?_, hlast⟩
  cases hfraction with
  | absent => exact hlast.1
  | present _ => simp [DigitFree]

private theorem scanUnsigned_append (h : Unsigned cs) (hrest : NumeralFree rest) :
    scanUnsigned (cs ++ rest) = some (cs, rest) := by
  obtain ⟨hwhole, hfraction, hexponent⟩ := h
  obtain ⟨hfirst, hsecond, hpoint⟩ := digitFree_after hfraction hexponent hrest
  simp only [scanUnsigned, List.append_assoc, scanInteger_append hwhole hfirst,
    scanFraction_append hfraction hsecond hpoint, scanExponent_append hexponent hrest,
    Option.bind_eq_bind, Option.bind_some, Option.pure_def]

private theorem unsigned_of_scanUnsigned (h : scanUnsigned cs = some (taken, rest)) :
    cs = taken ++ rest ∧ Unsigned taken := by
  simp only [scanUnsigned, Option.bind_eq_bind, Option.bind_eq_some_iff, Option.pure_def] at h
  obtain ⟨⟨whole, cs₁⟩, hfirst, ⟨fraction, cs₂⟩, hsecond, ⟨exponent, cs₃⟩, hthird, heq⟩ := h
  cases heq
  obtain ⟨rfl, hwhole⟩ := whole_of_scanInteger hfirst
  obtain ⟨rfl, hfraction⟩ := fraction_of_scanFraction hsecond
  obtain ⟨rfl, hexponent⟩ := exponent_of_scanExponent hthird
  exact ⟨by simp only [List.append_assoc], .mk hwhole hfraction hexponent⟩

theorem Unsigned.begins (h : Unsigned cs) : ∃ c tail, cs = c :: tail ∧ c.isDigit := by
  obtain ⟨hwhole, -, -⟩ := h
  cases hwhole with
  | zero => exact ⟨'0', _, rfl, rfl⟩
  | other _ hdigits => exact ⟨_, _, rfl, hdigits.2 _ List.mem_cons_self⟩

theorem Numeral.begins (h : Numeral cs) : ∃ c tail, cs = c :: tail ∧ (c.isDigit ∨ c = '-') := by
  cases h with
  | unsigned h =>
    obtain ⟨c, tail, rfl, hc⟩ := h.begins
    exact ⟨c, tail, rfl, .inl hc⟩
  | negative _ => exact ⟨'-', _, rfl, .inr rfl⟩

theorem scanNumber_append (h : Numeral cs) (hrest : NumeralFree rest) :
    scanNumber (cs ++ rest) = some (cs, rest) := by
  cases h with
  | unsigned h =>
    rw [scanNumber, scanUnsigned_append h hrest]
    obtain ⟨c, tail, rfl, hc⟩ := h.begins
    rintro _ heq
    cases heq
    exact absurd hc (by decide)
  | negative h =>
    rw [List.cons_append, scanNumber, scanUnsigned_append h hrest]
    rfl

theorem numeral_of_scanNumber (h : scanNumber cs = some (taken, rest)) :
    cs = taken ++ rest ∧ Numeral taken := by
  unfold scanNumber at h
  split at h
  · obtain ⟨⟨literal, rest⟩, hliteral, heq⟩ := Option.map_eq_some_iff.mp h
    cases heq
    obtain ⟨rfl, hunsigned⟩ := unsigned_of_scanUnsigned hliteral
    exact ⟨rfl, .negative hunsigned⟩
  · obtain ⟨rfl, hunsigned⟩ := unsigned_of_scanUnsigned h
    exact ⟨rfl, .unsigned hunsigned⟩

private theorem isDigit_digitChar {d : Nat} (h : d < 10) : (Text.digitChar d).isDigit := by
  have hall : ∀ d : Fin 10, (Text.digitChar d.val).isDigit := by decide
  exact hall ⟨d, h⟩

theorem areDigits_digits (n : Nat) : AreDigits (Text.digits 10 n) := by
  rw [Text.digits_eq_map_places (by decide)]
  refine ⟨by simpa using Text.places_ne_nil, fun c hc => ?_⟩
  obtain ⟨d, hd, rfl⟩ := List.mem_map.mp hc
  exact isDigit_digitChar (Text.lt_of_mem_places (by decide) hd)

private theorem whole_digits (n : Nat) : Whole (Text.digits 10 n) := by
  have hdigits := areDigits_digits n
  have hwritten : Text.digits 10 n = _ := Text.digits_eq_map_places (by decide)
  cases hplaces : Text.places 10 n with
  | nil => exact absurd hplaces Text.places_ne_nil
  | cons d ds =>
    rw [hplaces, List.map_cons] at hwritten
    by_cases hzero : d = 0
    · have hn : n = 0 := Text.eq_zero_of_head?_places (by rw [hplaces, hzero]; rfl)
      subst hn
      exact .zero
    · have hne : ∀ d : Fin 10, d.val ≠ 0 → Text.digitChar d.val ≠ '0' := by decide
      have hlt : d < 10 := Text.lt_of_mem_places (by decide) (hplaces ▸ List.mem_cons_self)
      rw [hwritten] at hdigits ⊢
      exact .other (hne ⟨d, hlt⟩ hzero) hdigits

theorem numeral_digits (n : Nat) : Numeral (Text.digits 10 n) := by
  have h := Unsigned.mk (whole_digits n) .absent .absent
  rw [List.append_nil, List.append_nil] at h
  exact .unsigned h

end Numbers

end BeaconMesh.Json
