import BeaconMesh.Key
import BeaconMesh.Proofs.Bytes.HexText
import BeaconMesh.Proofs.Bytes.Layout

/-!
The hexadecimal text of a digest: how long it is, that different digests have different texts,
which texts are read as a digest and what is reported of the others, and that digests are ordered as
their texts are.
-/

set_option autoImplicit false
set_option relaxedAutoImplicit false

namespace BeaconMesh.KeyHash

open Bytes (ofString)
open Bytes.Hex (IsDigitByte FirstBad)

variable {text : String} {h : KeyHash} {fault : Bytes.Hex.Fault}

@[simp] theorem length_bytes (h : KeyHash) : h.bytes.length = 16 := h.digest.length_bytes

theorem length_toHex (h : KeyHash) : h.toHex.length = 32 := by
  simp [toHex, Bytes.Hex.encode]

theorem bytes_injective : Function.Injective bytes := by
  intro a b hbytes
  cases a
  cases b
  exact congrArg KeyHash.mk (Block.ext hbytes)

theorem toHex_injective : Function.Injective toHex :=
  Bytes.Hex.encode_injective.comp bytes_injective

section Reading

/-- Thirty-two hexadecimal digits, each in either case. -/
def IsHex (text : String) : Prop :=
  text.length = 32 ∧ ∀ c ∈ text.toList, c ∈ Text.lowerCase ++ Text.upperCase

theorem ofHex_eq_ok_iff_decode : ofHex text = .ok h ↔ Bytes.Hex.decode text = .ok h.bytes := by
  unfold ofHex
  cases hdecode : Bytes.Hex.decode text with
  | error fault => simp
  | ok bs =>
    simp only [Block.ofBytes?]
    by_cases hlength : bs.length = 16
    · simp only [dif_pos hlength, Except.ok.injEq]
      exact (bytes_injective.eq_iff (a := ⟨⟨bs, hlength⟩⟩)).symm
    · have hne : bs ≠ h.bytes := by
        rintro rfl
        exact hlength h.length_bytes
      simp [hlength, hne]

theorem ofHex_eq_error_iff_decode :
    ofHex text = .error fault ↔
      Bytes.Hex.decode text = .error fault ∨
        fault = .wrongLength ∧ ∃ bs, Bytes.Hex.decode text = .ok bs ∧ bs.length ≠ 16 := by
  unfold ofHex
  cases hdecode : Bytes.Hex.decode text with
  | error fault => simp
  | ok bs =>
    simp only [Block.ofBytes?]
    by_cases hlength : bs.length = 16
    · simp [hlength]
    · simp [hlength, eq_comm]

theorem exists_ofHex_eq_ok_iff : (∃ h, ofHex text = .ok h) ↔ IsHex text := by
  simp only [ofHex_eq_ok_iff_decode, Bytes.Hex.decode_eq_ok_iff, IsHex, ← String.length_toList]
  constructor
  · rintro ⟨h, hspells⟩
    exact ⟨by rw [hspells.length_eq, h.length_bytes], hspells.mem_digits⟩
  · rintro ⟨hlength, hdigits⟩
    obtain ⟨bs, hspells⟩ := Bytes.Hex.exists_spells (n := 16) hlength hdigits
    have hbytes : bs.length = 16 := by
      have htwice := hspells.length_eq
      omega
    exact ⟨⟨⟨bs, hbytes⟩⟩, hspells⟩

theorem toHex_of_ofHex (hread : ofHex text = .ok h) : h.toHex = text.toLower :=
  Bytes.Hex.encode_of_decode (ofHex_eq_ok_iff_decode.mp hread)

theorem ofHex_eq_ok_iff : ofHex text = .ok h ↔ IsHex text ∧ h.toHex = text.toLower := by
  constructor
  · intro hread
    exact ⟨exists_ofHex_eq_ok_iff.mp ⟨h, hread⟩, toHex_of_ofHex hread⟩
  · rintro ⟨hhex, htext⟩
    obtain ⟨read, hread⟩ := exists_ofHex_eq_ok_iff.mpr hhex
    have hsame : read = h := toHex_injective ((toHex_of_ofHex hread).trans htext.symm)
    rw [hread, hsame]

theorem ofHex_toHex (h : KeyHash) : ofHex h.toHex = .ok h :=
  ofHex_eq_ok_iff_decode.mpr (Bytes.Hex.decode_encode h.bytes)

theorem ofHex_eq_oddLength_iff :
    ofHex text = .error .oddLength ↔ (ofString text).length % 2 = 1 := by
  simp [ofHex_eq_error_iff_decode, Bytes.Hex.decode_eq_error_iff]

theorem ofHex_eq_badDigit_iff {byte : UInt8} {n : Nat} :
    ofHex text = .error (.badDigit byte n) ↔
      (ofString text).length % 2 = 0 ∧ FirstBad (ofString text) byte n := by
  simp [ofHex_eq_error_iff_decode, Bytes.Hex.decode_eq_error_iff]

-- A character of two bytes keeps the number of bytes even; its first byte is what is reported.
example : ofHex "00é" = .error (.badDigit 0xC3 2) := by decide

theorem ofHex_eq_wrongLength_iff :
    ofHex text = .error .wrongLength ↔
      (ofString text).length % 2 = 0 ∧ (∀ b ∈ ofString text, IsDigitByte b) ∧
        (ofString text).length ≠ 32 := by
  have hnever : Bytes.Hex.decode text ≠ .error .wrongLength := by
    simp [Bytes.Hex.decode_eq_error_iff]
  have hlength : ∀ bs, Bytes.Hex.decode text = .ok bs →
      (bs.length ≠ 16 ↔ (ofString text).length ≠ 32) := by
    intro bs hdecode
    have htwice : (ofString text).length = 2 * bs.length :=
      (Bytes.Hex.decode_eq_ok_iff.mp hdecode).length_ofChars
    omega
  rw [ofHex_eq_error_iff_decode, or_iff_right hnever, ← and_assoc,
    ← Bytes.Hex.exists_decode_eq_ok_iff]
  constructor
  · rintro ⟨-, bs, hdecode, hne⟩
    exact ⟨⟨bs, hdecode⟩, (hlength bs hdecode).mp hne⟩
  · rintro ⟨⟨bs, hdecode⟩, hne⟩
    exact ⟨rfl, bs, hdecode, (hlength bs hdecode).mpr hne⟩

end Reading

section Order

variable {a b : KeyHash}

theorem bytes_lt_iff_toHex : a.bytes < b.bytes ↔ ofString a.toHex < ofString b.toHex :=
  Bytes.Hex.ofString_encode_lt_iff.symm

theorem le_iff_toHex : a.le b = true ↔ ofString a.toHex ≤ ofString b.toHex := by
  rw [le, decide_eq_true_iff, ← List.not_lt, ← List.not_lt, bytes_lt_iff_toHex]

end Order

/-- Just the texts of thirty-two hexadecimal digits are read, each as the digest whose text it is in
lower case, so that every digest is read back from its text. Any other text is refused for an odd
number of bytes, or else for its first byte that is no digit, or else for its length. Digests are
ordered as their texts are, byte by byte. -/
theorem hexText_decided :
    (∀ text, (∃ h, ofHex text = .ok h) ↔ IsHex text) ∧
    (∀ text h, ofHex text = .ok h ↔ IsHex text ∧ h.toHex = text.toLower) ∧
    (∀ h : KeyHash, ofHex h.toHex = .ok h) ∧
    (∀ text, ofHex text = .error .oddLength ↔ (ofString text).length % 2 = 1) ∧
    (∀ text byte position, ofHex text = .error (.badDigit byte position) ↔
      (ofString text).length % 2 = 0 ∧ FirstBad (ofString text) byte position) ∧
    (∀ text, ofHex text = .error .wrongLength ↔
      (ofString text).length % 2 = 0 ∧ (∀ b ∈ ofString text, IsDigitByte b) ∧
        (ofString text).length ≠ 32) ∧
    ∀ a b : KeyHash,
      (a.le b = true ↔ ofString a.toHex ≤ ofString b.toHex) ∧
      (a.bytes < b.bytes ↔ ofString a.toHex < ofString b.toHex) ∧
      (a = b ↔ a.toHex = b.toHex) := by
  refine ⟨fun _ => exists_ofHex_eq_ok_iff, fun _ _ => ofHex_eq_ok_iff, ofHex_toHex,
    fun _ => ofHex_eq_oddLength_iff, fun _ _ _ => ofHex_eq_badDigit_iff,
    fun _ => ofHex_eq_wrongLength_iff, fun a b => ⟨le_iff_toHex, bytes_lt_iff_toHex, ?_⟩⟩
  exact toHex_injective.eq_iff.symm

end BeaconMesh.KeyHash
