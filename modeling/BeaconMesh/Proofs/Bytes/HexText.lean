import BeaconMesh.Bytes.Hex
import BeaconMesh.Proofs.Text.Numeral

/-!
Hexadecimal text: which texts stand for a byte string, that exactly these are decoded, and what is
wrong with the others. The digits are told from the bytes of the text, and no byte of a character
outside ASCII is a digit. What is written for a byte string is decoded to it, and byte strings are
ordered as what is written for them.
-/

set_option autoImplicit false
set_option relaxedAutoImplicit false

namespace BeaconMesh.Bytes.Hex

/-- The characters are two hexadecimal digits for every byte, each in either case. -/
inductive Spells : List Char → Bytes → Prop
  | nil : Spells [] []
  | cons {high low : Char} {b : UInt8} {cs : List Char} {bs : Bytes}
      (hhigh : Text.IsDigit 16 high (b.toNat / 16)) (hlow : Text.IsDigit 16 low (b.toNat % 16))
      (h : Spells cs bs) : Spells (high :: low :: cs) (b :: bs)

/-- The byte is by itself a hexadecimal digit, in either case. -/
def IsDigitByte (b : UInt8) : Prop :=
  ∃ c ∈ Text.lowerCase ++ Text.upperCase, String.utf8EncodeChar c = [b]

/-- The byte is no digit, and all bytes before it, so many, are digits. -/
def FirstBad (bs : Bytes) (byte : UInt8) (position : Nat) : Prop :=
  ∃ before after, bs = before ++ byte :: after ∧ before.length = position ∧
    (∀ b ∈ before, IsDigitByte b) ∧ ¬ IsDigitByte byte

variable {c high low : Char} {cs : List Char} {text : String} {as bs : Bytes} {b byte : UInt8}
  {d n position : Nat} {fault : Fault}

section Digits

private theorem value?_ofNat_of_le {n : Nat} (hlow : 128 ≤ n) (hhigh : n < 256) :
    value? (UInt8.ofNat n) = none := by
  have hn : (UInt8.ofNat n).toNat = n := UInt8.toNat_ofNat_of_lt' hhigh
  simp only [value?, hn]
  rw [if_neg (by omega), if_neg (by omega), if_neg (by omega)]

private theorem utf8_of_le (h : c.toNat ≤ 127) :
    String.utf8EncodeChar c = [UInt8.ofNat c.toNat] :=
  if_pos h

private theorem utf8_of_not_le (h : ¬ c.toNat ≤ 127) :
    ∃ first rest, String.utf8EncodeChar c = first :: rest ∧ value? first = none := by
  unfold String.utf8EncodeChar
  simp only
  split
  · contradiction
  · split
    · exact ⟨_, _, rfl, value?_ofNat_of_le (by omega) (by omega)⟩
    · split
      · exact ⟨_, _, rfl, value?_ofNat_of_le (by omega) (by omega)⟩
      · exact ⟨_, _, rfl, value?_ofNat_of_le (by omega) (by omega)⟩

private theorem value?_of_le (h : c.toNat ≤ 127) :
    value? (UInt8.ofNat c.toNat) = Text.digitValue? 16 c := by
  have hn : (UInt8.ofNat c.toNat).toNat = c.toNat :=
    UInt8.toNat_ofNat_of_lt' (h.trans_lt (by decide))
  simp only [value?, Text.digitValue?, hn]
  split
  · rw [Option.filter_some, if_pos (by simp; omega)]
  · split
    · rw [if_pos (by omega), Option.filter_some, if_pos (by simp; omega)]
    · split
      · rw [if_neg (by omega), if_pos (by omega), Option.filter_some, if_pos (by simp; omega)]
      · split
        · rw [Option.filter_some, if_neg (by simp; omega)]
        · split
          · rw [Option.filter_some, if_neg (by simp; omega)]
          · rfl

private theorem value?_eq_some_iff (h : c.toNat ≤ 127) :
    value? (UInt8.ofNat c.toNat) = some d ↔ Text.IsDigit 16 c d := by
  rw [value?_of_le h, Text.digitValue?_eq_some_iff (by decide)]

private theorem le_of_isDigit (h : Text.IsDigit 16 c d) : c.toNat ≤ 127 := by
  have hmem : c ∈ Text.lowerCase ++ Text.upperCase := Text.exists_isDigit_iff.mp ⟨d, h⟩
  have hall : ∀ c ∈ Text.lowerCase ++ Text.upperCase, c.toNat ≤ 127 := by
    simp [Text.lowerCase, Text.upperCase]
  exact hall c hmem

private theorem utf8_of_digit {first : UInt8} {rest : Bytes}
    (hbytes : String.utf8EncodeChar c = first :: rest) (hdigit : value? first = some d) :
    rest = [] ∧ Text.IsDigit 16 c d := by
  by_cases hascii : c.toNat ≤ 127
  · rw [utf8_of_le hascii] at hbytes
    cases hbytes
    exact ⟨rfl, (value?_eq_some_iff hascii).mp hdigit⟩
  · obtain ⟨first', rest', hbytes', hnone⟩ := utf8_of_not_le hascii
    cases hbytes.symm.trans hbytes'
    cases hdigit.symm.trans hnone

private theorem toNat_ofNat_of_le (h : n ≤ 127) : (Char.ofNat n).toNat = n := by
  have hvalid : n.isValidChar := .inl (by omega)
  rw [Char.ofNat, dif_pos hvalid]
  rfl

private theorem exists_value?_iff : (∃ d, value? b = some d) ↔ IsDigitByte b := by
  constructor
  · rintro ⟨d, hd⟩
    have hascii : b.toNat ≤ 127 := by
      by_contra hlarge
      have hnone := value?_ofNat_of_le (by omega) b.toNat_lt
      rw [UInt8.ofNat_toNat, hd] at hnone
      cases hnone
    have hnumber : (Char.ofNat b.toNat).toNat = b.toNat := toNat_ofNat_of_le hascii
    have hle : (Char.ofNat b.toNat).toNat ≤ 127 := hnumber.trans_le hascii
    have hdigit : Text.IsDigit 16 (Char.ofNat b.toNat) d := by
      rwa [← value?_eq_some_iff hle, hnumber, UInt8.ofNat_toNat]
    refine ⟨_, Text.exists_isDigit_iff.mp ⟨d, hdigit⟩, ?_⟩
    rw [utf8_of_le hle, hnumber, UInt8.ofNat_toNat]
  · rintro ⟨c, hmem, hbytes⟩
    obtain ⟨d, hdigit⟩ := Text.exists_isDigit_iff.mpr hmem
    have hle := le_of_isDigit hdigit
    rw [utf8_of_le hle, List.singleton_inj] at hbytes
    exact ⟨d, hbytes ▸ (value?_eq_some_iff hle).mpr hdigit⟩

private theorem value?_eq_none_iff : value? b = none ↔ ¬ IsDigitByte b := by
  rw [← exists_value?_iff, Option.eq_none_iff_forall_ne_some, not_exists]

private theorem exists_utf8_cons (c : Char) :
    ∃ first rest, String.utf8EncodeChar c = first :: rest := by
  by_cases hascii : c.toNat ≤ 127
  · exact ⟨_, _, utf8_of_le hascii⟩
  · obtain ⟨first, rest, hbytes, -⟩ := utf8_of_not_le hascii
    exact ⟨first, rest, hbytes⟩

end Digits

section Decoding

private theorem Spells.cons_of_digits {h l : Nat} (hspells : Spells cs bs)
    (hhigh : Text.IsDigit 16 high h) (hlow : Text.IsDigit 16 low l) :
    Spells (high :: low :: cs) (UInt8.ofNat (16 * h + l) :: bs) := by
  have hbyte : (UInt8.ofNat (16 * h + l)).toNat = 16 * h + l := by
    have hh := hhigh.1
    have hl := hlow.1
    exact UInt8.toNat_ofNat_of_lt' (by rw [UInt8.size]; omega)
  refine .cons ?_ ?_ hspells
  · rwa [hbyte, Nat.mul_add_div (by decide), Nat.div_eq_of_lt hlow.1, Nat.add_zero]
  · rwa [hbyte, Nat.mul_add_mod, Nat.mod_eq_of_lt hlow.1]

private theorem decodeFrom_cons_eq_ok_iff {first second : UInt8} {rest : Bytes} :
    decodeFrom position (first :: second :: rest) = .ok bs ↔
      ∃ h l tail, value? first = some h ∧ value? second = some l ∧
        decodeFrom (position + 2) rest = .ok tail ∧ bs = UInt8.ofNat (16 * h + l) :: tail := by
  rw [decodeFrom]
  split
  · rename_i hnone
    simp [hnone]
  · rename_i hnone
    simp [hnone]
  · rename_i h l hh hl
    rw [hh, hl]
    cases htail : decodeFrom (position + 2) rest <;> simp [eq_comm]

private theorem exists_second {first : UInt8} {rest : Bytes}
    (h : decodeFrom position (first :: rest) = .ok bs) :
    ∃ second tail, rest = second :: tail := by
  cases rest with
  | nil => cases h
  | cons second tail => exact ⟨second, tail, rfl⟩

private theorem spells_of_decodeFrom {cs : List Char} {position : Nat} {bs : Bytes}
    (h : decodeFrom position (ofChars cs) = .ok bs) : Spells cs bs := by
  -- The decoder goes through the bytes, two at a time; that each of the two is a character of its
  -- own comes from `utf8_of_digit`.
  match cs with
  | [] =>
    cases h
    exact .nil
  | high :: rest =>
    obtain ⟨first, firstRest, hfirst⟩ := exists_utf8_cons high
    rw [ofChars, List.flatMap_cons, hfirst, List.cons_append] at h
    obtain ⟨second, bytes, hsecond⟩ := exists_second h
    rw [hsecond, decodeFrom_cons_eq_ok_iff] at h
    obtain ⟨vh, vl, tail, hvh, hvl, htail, rfl⟩ := h
    obtain ⟨rfl, hhigh⟩ := utf8_of_digit hfirst hvh
    match rest with
    | [] => cases hsecond
    | low :: cs =>
      obtain ⟨second', secondRest, hbytes⟩ := exists_utf8_cons low
      rw [List.nil_append, List.flatMap_cons, hbytes, List.cons_append] at hsecond
      cases hsecond
      obtain ⟨rfl, hlow⟩ := utf8_of_digit hbytes hvl
      exact (spells_of_decodeFrom htail).cons_of_digits hhigh hlow

private theorem decodeFrom_of_spells (h : Spells cs bs) (position : Nat) :
    decodeFrom position (ofChars cs) = .ok bs := by
  induction h generalizing position with
  | nil => rfl
  | @cons high low b cs bs hhigh hlow _ ih =>
    have hbytes : ofChars (high :: low :: cs)
        = UInt8.ofNat high.toNat :: UInt8.ofNat low.toNat :: ofChars cs := by
      simp [ofChars, utf8_of_le (le_of_isDigit hhigh), utf8_of_le (le_of_isDigit hlow)]
    rw [hbytes, decodeFrom_cons_eq_ok_iff]
    refine ⟨_, _, bs, (value?_eq_some_iff (le_of_isDigit hhigh)).mpr hhigh,
      (value?_eq_some_iff (le_of_isDigit hlow)).mpr hlow, ih _, ?_⟩
    rw [Nat.div_add_mod, UInt8.ofNat_toNat]

theorem Spells.length_ofChars (h : Spells cs bs) : (ofChars cs).length = 2 * bs.length := by
  induction h with
  | nil => rfl
  | cons hhigh hlow _ ih =>
    rw [ofChars] at ih
    simp [ofChars, utf8_of_le (le_of_isDigit hhigh), utf8_of_le (le_of_isDigit hlow), ih]
    omega

/-- Exactly the hexadecimal texts of byte strings are decoded, each to its byte string. -/
theorem decode_eq_ok_iff : decode text = .ok bs ↔ Spells text.toList bs := by
  constructor
  · intro h
    simp only [decode] at h
    split at h
    · cases h
    · exact spells_of_decodeFrom h
  · intro h
    have heven : ¬ (ofString text).length % 2 = 1 := by
      rw [ofString, h.length_ofChars]
      omega
    rw [decode, if_neg heven]
    exact decodeFrom_of_spells h 0

end Decoding

section Characters

theorem Spells.length_eq (h : Spells cs bs) : cs.length = 2 * bs.length := by
  induction h with
  | nil => rfl
  | cons _ _ _ ih =>
    simp only [List.length_cons, ih]
    omega

theorem Spells.mem_digits (h : Spells cs bs) : ∀ c ∈ cs, c ∈ Text.lowerCase ++ Text.upperCase := by
  induction h with
  | nil => simp
  | cons hhigh hlow _ ih =>
    exact List.forall_mem_cons.mpr ⟨Text.exists_isDigit_iff.mp ⟨_, hhigh⟩,
      List.forall_mem_cons.mpr ⟨Text.exists_isDigit_iff.mp ⟨_, hlow⟩, ih⟩⟩

theorem exists_spells (hlength : cs.length = 2 * n)
    (hdigits : ∀ c ∈ cs, c ∈ Text.lowerCase ++ Text.upperCase) : ∃ bs, Spells cs bs := by
  induction n generalizing cs with
  | zero =>
    obtain rfl := List.length_eq_zero_iff.mp hlength
    exact ⟨[], .nil⟩
  | succ n ih =>
    obtain ⟨high, rest, rfl⟩ := List.exists_cons_of_length_eq_add_one hlength
    obtain ⟨low, cs, rfl⟩ := List.exists_cons_of_length_eq_add_one (Nat.succ.inj hlength)
    obtain ⟨hhigh, hrest⟩ := List.forall_mem_cons.mp hdigits
    obtain ⟨hlow, hcs⟩ := List.forall_mem_cons.mp hrest
    obtain ⟨h, hh⟩ := Text.exists_isDigit_iff.mpr hhigh
    obtain ⟨l, hl⟩ := Text.exists_isDigit_iff.mpr hlow
    obtain ⟨bs, hspells⟩ := ih (Nat.succ.inj (Nat.succ.inj hlength)) hcs
    exact ⟨_, hspells.cons_of_digits hh hl⟩

end Characters

section Writing

@[simp] theorem length_encodeChars (bs : Bytes) : (encodeChars bs).length = 2 * bs.length := by
  induction bs with
  | nil => rfl
  | cons b bs ih =>
    simp only [encodeChars, List.length_cons, ih]
    omega

theorem spells_encodeChars (bs : Bytes) : Spells (encodeChars bs) bs := by
  induction bs with
  | nil => exact .nil
  | cons b bs ih =>
    have hb := b.toNat_lt
    exact .cons (Text.isDigit_digitChar (by decide) (by omega))
      (Text.isDigit_digitChar (by decide) (by omega)) ih

theorem decode_encode (bs : Bytes) : decode (encode bs) = .ok bs := by
  rw [decode_eq_ok_iff, encode, String.toList_ofList]
  exact spells_encodeChars bs

theorem encode_injective : Function.Injective encode := by
  intro as bs h
  have hdecode := decode_encode as
  rw [h, decode_encode] at hdecode
  exact (Except.ok.inj hdecode).symm

theorem Spells.encodeChars_eq (h : Spells cs bs) : encodeChars bs = cs.map Char.toLower := by
  induction h with
  | nil => rfl
  | cons hhigh hlow _ ih =>
    rw [encodeChars, List.map_cons, List.map_cons, ih,
      Text.toLower_of_isDigit (by decide) hhigh, Text.toLower_of_isDigit (by decide) hlow]

theorem encode_of_decode (h : decode text = .ok bs) : encode bs = text.toLower := by
  apply String.toList_inj.mp
  calc (encode bs).toList
    _ = encodeChars bs := String.toList_ofList
    _ = text.toList.map Char.toLower := (decode_eq_ok_iff.mp h).encodeChars_eq
    _ = text.toLower.toList := String.toList_map.symm

end Writing

section Refusing

private theorem firstBad_cons_of_bad (h : ¬ IsDigitByte b) :
    FirstBad (b :: bs) byte n ↔ byte = b ∧ n = 0 := by
  constructor
  · rintro ⟨before, after, hbs, rfl, hdigits, -⟩
    cases before with
    | nil => exact ⟨(List.cons.inj hbs).1.symm, rfl⟩
    | cons first before =>
      rw [(List.cons.inj hbs).1] at h
      exact absurd (hdigits first List.mem_cons_self) h
  · rintro ⟨rfl, rfl⟩
    exact ⟨[], bs, rfl, rfl, by simp, h⟩

private theorem firstBad_cons_of_digit (h : IsDigitByte b) :
    FirstBad (b :: bs) byte n ↔ ∃ k, n = k + 1 ∧ FirstBad bs byte k := by
  constructor
  · rintro ⟨before, after, hbs, rfl, hdigits, hbad⟩
    cases before with
    | nil =>
      rw [(List.cons.inj hbs).1] at h
      exact absurd h hbad
    | cons first before =>
      obtain ⟨-, rfl⟩ := List.cons.inj hbs
      exact ⟨before.length, rfl, before, after, rfl, rfl,
        (List.forall_mem_cons.mp hdigits).2, hbad⟩
  · rintro ⟨k, rfl, before, after, rfl, rfl, hdigits, hbad⟩
    exact ⟨b :: before, after, rfl, rfl, List.forall_mem_cons.mpr ⟨h, hdigits⟩, hbad⟩

theorem forall_isDigitByte_iff : (∀ b ∈ bs, IsDigitByte b) ↔ ∀ byte n, ¬ FirstBad bs byte n := by
  constructor
  · rintro hdigits byte n ⟨before, after, rfl, -, -, hbad⟩
    exact hbad (hdigits byte (by simp))
  · intro hnone
    induction bs with
    | nil => simp
    | cons b bs ih =>
      have hb : IsDigitByte b := by
        by_contra hbad
        exact hnone b 0 ((firstBad_cons_of_bad hbad).mpr ⟨rfl, rfl⟩)
      refine List.forall_mem_cons.mpr ⟨hb, ih fun byte n hbad => ?_⟩
      exact hnone byte (n + 1) ((firstBad_cons_of_digit hb).mpr ⟨n, rfl, hbad⟩)

section Pairs

variable {first second : UInt8} {rest : Bytes}

private theorem decodeFrom_digits_eq_error_iff (hfirst : IsDigitByte first)
    (hsecond : IsDigitByte second) :
    decodeFrom position (first :: second :: rest) = .error fault ↔
      decodeFrom (position + 2) rest = .error fault := by
  obtain ⟨h, hh⟩ := exists_value?_iff.mpr hfirst
  obtain ⟨l, hl⟩ := exists_value?_iff.mpr hsecond
  rw [decodeFrom, hh, hl]
  cases decodeFrom (position + 2) rest <;> simp

private theorem decodeFrom_of_bad_first (hfirst : ¬ IsDigitByte first) :
    decodeFrom position (first :: second :: rest) = .error (.badDigit first position) := by
  rw [decodeFrom, value?_eq_none_iff.mpr hfirst]

private theorem decodeFrom_of_bad_second (hfirst : IsDigitByte first)
    (hsecond : ¬ IsDigitByte second) :
    decodeFrom position (first :: second :: rest) = .error (.badDigit second (position + 1)) := by
  obtain ⟨h, hh⟩ := exists_value?_iff.mpr hfirst
  rw [decodeFrom, hh, value?_eq_none_iff.mpr hsecond]

end Pairs

private theorem decodeFrom_eq_error_iff {position : Nat} {bs : Bytes} (heven : bs.length % 2 = 0) :
    decodeFrom position bs = .error fault ↔
      ∃ byte n, fault = .badDigit byte (position + n) ∧ FirstBad bs byte n := by
  -- Two bytes at a time, as the decoder goes: the position moves on with it.
  match bs with
  | [] => simp [decodeFrom, FirstBad]
  | [_] => simp at heven
  | first :: second :: rest =>
    by_cases hfirst : IsDigitByte first
    · by_cases hsecond : IsDigitByte second
      · have hrest : rest.length % 2 = 0 := by
          simpa only [List.length_cons, Nat.add_assoc, Nat.add_mod_right] using heven
        rw [decodeFrom_digits_eq_error_iff hfirst hsecond, decodeFrom_eq_error_iff hrest]
        simp only [firstBad_cons_of_digit hfirst, firstBad_cons_of_digit hsecond]
        constructor
        · rintro ⟨byte, n, rfl, hbad⟩
          exact ⟨byte, n + 2, congrArg (Fault.badDigit byte) (by omega), n + 1, rfl, n, rfl, hbad⟩
        · rintro ⟨byte, _, rfl, _, rfl, n, rfl, hbad⟩
          exact ⟨byte, n, congrArg (Fault.badDigit byte) (by omega), hbad⟩
      · simp [decodeFrom_of_bad_second hfirst hsecond, firstBad_cons_of_digit hfirst,
          firstBad_cons_of_bad hsecond, eq_comm]
    · simp [decodeFrom_of_bad_first hfirst, firstBad_cons_of_bad hfirst, eq_comm]

/-- A text is refused for an odd number of bytes, or else for its first byte that is no digit. -/
theorem decode_eq_error_iff :
    decode text = .error fault ↔
      (ofString text).length % 2 = 1 ∧ fault = .oddLength ∨
      (ofString text).length % 2 = 0 ∧
        ∃ byte n, fault = .badDigit byte n ∧ FirstBad (ofString text) byte n := by
  simp only [decode]
  split
  · rename_i hodd
    simp [hodd, eq_comm]
  · rename_i hne
    have heven : (ofString text).length % 2 = 0 := by omega
    rw [decodeFrom_eq_error_iff heven]
    simp [heven]

theorem exists_decode_eq_ok_iff :
    (∃ bs, decode text = .ok bs) ↔
      (ofString text).length % 2 = 0 ∧ ∀ b ∈ ofString text, IsDigitByte b := by
  constructor
  · rintro ⟨bs, hok⟩
    have hnever : ∀ fault, decode text ≠ .error fault := by simp [hok]
    have heven : (ofString text).length % 2 = 0 := by
      by_contra hodd
      exact hnever _ (decode_eq_error_iff.mpr (.inl ⟨by omega, rfl⟩))
    refine ⟨heven, forall_isDigitByte_iff.mpr fun byte n hbad => ?_⟩
    exact hnever _ (decode_eq_error_iff.mpr (.inr ⟨heven, byte, n, rfl, hbad⟩))
  · rintro ⟨heven, hdigits⟩
    cases hdecode : decode text with
    | ok bs => exact ⟨bs, rfl⟩
    | error fault =>
      rcases decode_eq_error_iff.mp hdecode with ⟨hodd, -⟩ | ⟨-, byte, n, -, hbad⟩
      · omega
      · exact absurd hbad (forall_isDigitByte_iff.mp hdigits byte n)

end Refusing

section Order

private def digitByte (d : Nat) : UInt8 := UInt8.ofNat (Text.digitChar d).toNat

private theorem toNat_digitChar_le (h : d < 16) : (Text.digitChar d).toNat ≤ 127 :=
  le_of_isDigit (Text.isDigit_digitChar (by decide) h)

private theorem ofChars_encodeChars_cons (b : UInt8) (bs : Bytes) :
    ofChars (encodeChars (b :: bs))
      = digitByte (b.toNat / 16) :: digitByte (b.toNat % 16) :: ofChars (encodeChars bs) := by
  have hb := b.toNat_lt
  have hhigh := toNat_digitChar_le (d := b.toNat / 16) (by omega)
  have hlow := toNat_digitChar_le (d := b.toNat % 16) (by omega)
  simp [ofChars, encodeChars, utf8_of_le hhigh, utf8_of_le hlow, digitByte]

private theorem digitByte_lt_iff {k : Nat} (hd : d < 16) (hk : k < 16) :
    digitByte d < digitByte k ↔ d < k := by
  have hsize : ∀ {e : Nat}, e < 16 → (digitByte e).toNat = (Text.digitChar e).toNat := fun he =>
    UInt8.toNat_ofNat_of_lt' ((toNat_digitChar_le he).trans_lt (by decide))
  rw [UInt8.lt_iff_toNat_lt, hsize hd, hsize hk, Text.toNat_digitChar_lt_iff hd hk]

private theorem digitByte_inj {k : Nat} (hd : d < 16) (hk : k < 16) :
    digitByte d = digitByte k ↔ d = k := by
  constructor
  · intro h
    have hless := digitByte_lt_iff hd hk
    have hmore := digitByte_lt_iff hk hd
    simp only [h, Std.lt_irrefl, false_iff] at hless hmore
    omega
  · exact congrArg digitByte

private theorem ofChars_encodeChars_lt_iff :
    ofChars (encodeChars as) < ofChars (encodeChars bs) ↔ as < bs := by
  induction as generalizing bs with
  | nil =>
    cases bs with
    | nil => exact Iff.rfl
    | cons b bs =>
      rw [ofChars_encodeChars_cons]
      exact iff_of_true (List.nil_lt_cons _ _) (List.nil_lt_cons _ _)
  | cons a as ih =>
    cases bs with
    | nil => exact iff_of_false (List.not_lt_nil _) (List.not_lt_nil _)
    | cons b bs =>
      have ha := a.toNat_lt
      have hb := b.toNat_lt
      -- Both digits of one byte come before those of the next: the higher ones first.
      rw [ofChars_encodeChars_cons, ofChars_encodeChars_cons, List.cons_lt_cons_iff,
        List.cons_lt_cons_iff, List.cons_lt_cons_iff, ih,
        digitByte_lt_iff (by omega) (by omega), digitByte_lt_iff (by omega) (by omega),
        digitByte_inj (by omega) (by omega), digitByte_inj (by omega) (by omega),
        UInt8.lt_iff_toNat_lt, ← UInt8.toNat_inj]
      by_cases hrest : as < bs
      · simp only [hrest, and_true]
        omega
      · simp only [hrest, and_false, or_false]
        omega

theorem ofString_encode_lt_iff : ofString (encode as) < ofString (encode bs) ↔ as < bs := by
  rw [ofString, ofString, encode, encode, String.toList_ofList, String.toList_ofList,
    ofChars_encodeChars_lt_iff]

end Order

end BeaconMesh.Bytes.Hex
