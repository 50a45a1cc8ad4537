import BeaconMesh.Proofs.Text.Numeral
import BeaconMesh.Round.Fault

/-!
The text of a peer's identifier: which texts name a peer, that exactly these are accepted, and that
an identifier is read back from its own text unless it has no uuid.
-/

set_option autoImplicit false
set_option relaxedAutoImplicit false

namespace BeaconMesh

namespace Text

variable {separator : Char} {cs before after : List Char}

theorem splitLast?_eq_none_iff : splitLast? separator cs = none ↔ separator ∉ cs := by
  induction cs with
  | nil => simp [splitLast?]
  | cons c rest ih =>
    rw [List.mem_cons, not_or, ← ih, splitLast?]
    split
    · rename_i hrest
      simp [hrest]
    · rename_i hrest
      by_cases hc : c = separator
      · simp [hc]
      · simp [hc, Ne.symm hc, hrest]

theorem splitLast?_eq_some_iff :
    splitLast? separator cs = some (before, after) ↔
      cs = before ++ separator :: after ∧ separator ∉ after := by
  constructor
  · intro h
    induction cs generalizing before with
    | nil => cases h
    | cons c rest ih =>
      rw [splitLast?] at h
      split at h
      · rename_i front back hrest
        obtain ⟨rfl, rfl⟩ := Prod.mk.inj (Option.some.inj h)
        obtain ⟨rfl, hafter⟩ := ih hrest
        exact ⟨rfl, hafter⟩
      · rename_i hrest
        split at h
        · rename_i hc
          obtain ⟨rfl, rfl⟩ := Prod.mk.inj (Option.some.inj h)
          exact ⟨by rw [hc]; rfl, splitLast?_eq_none_iff.mp hrest⟩
        · cases h
  · rintro ⟨rfl, hafter⟩
    induction before with
    | nil => rw [List.nil_append, splitLast?, splitLast?_eq_none_iff.mpr hafter, if_pos rfl]
    | cons c before ih => rw [List.cons_append, splitLast?, ih]

end Text

namespace PeerIdentifier

/-- A text names a peer: what stands before the last colon is its uuid, which is not empty, and
what follows is the numeral of a generation. -/
def Names (text : String) (uuid : List Char) (n : Nat) : Prop :=
  ∃ generation, text.toList = uuid ++ ':' :: generation ∧ ':' ∉ generation ∧ uuid ≠ [] ∧
    Text.IsNumeral 16 generation n ∧ n < 2 ^ 32

variable {text : String} {uuid : List Char} {n : Nat}

theorem ofText_of_names (h : Names text uuid n) :
    ofText text = .ok ⟨String.ofList uuid, UInt32.ofNat n⟩ := by
  obtain ⟨generation, htext, hlast, huuid, hnumeral, hbound⟩ := h
  have hread : Text.readNumber 16 4294967295 generation = .ok n :=
    (Text.readNumber_eq_ok_iff (by decide)).mpr ⟨hnumeral, by omega⟩
  have hsplit := Text.splitLast?_eq_some_iff.mpr ⟨htext, hlast⟩
  have hempty : uuid.isEmpty = false := List.isEmpty_eq_false_iff.mpr huuid
  simp only [ofText, hsplit, hempty, hread, Bool.false_eq_true, if_false]

theorem names_of_ofText {id : PeerIdentifier} (h : ofText text = .ok id) :
    ∃ uuid n, Names text uuid n := by
  unfold ofText at h
  split at h
  · cases h
  · rename_i uuid generation hsplit
    obtain ⟨htext, hlast⟩ := Text.splitLast?_eq_some_iff.mp hsplit
    split at h
    · cases h
    · rename_i huuid
      split at h
      · cases h
      · rename_i n hread
        obtain ⟨hnumeral, hbound⟩ := (Text.readNumber_eq_ok_iff (by decide)).mp hread
        exact ⟨uuid, n, generation, htext, hlast, fun hnil => huuid (by rw [hnil]; rfl), hnumeral,
          by omega⟩

theorem toList_text (id : PeerIdentifier) :
    id.text.toList = id.uuid.toList ++ ':' :: Text.digits 16 id.generation.toNat := by
  simp [PeerIdentifier.text, Text.hexadecimal]

theorem spells_generation (id : PeerIdentifier) :
    Text.Spells 16 (Text.digits 16 id.generation.toNat) id.generation.toNat :=
  Text.spells_digits (by decide) (by decide) _

theorem colon_notMem_generation (id : PeerIdentifier) :
    ':' ∉ Text.digits 16 id.generation.toNat :=
  Text.not_mem_digits (by decide) (by decide) (by decide) _

theorem names_text {id : PeerIdentifier} (h : id.uuid ≠ "") :
    Names id.text id.uuid.toList id.generation.toNat := by
  refine ⟨_, id.toList_text, id.colon_notMem_generation, ?_, .inl id.spells_generation,
    id.generation.toNat_lt⟩
  simpa using h

theorem ofText_text_of_empty {id : PeerIdentifier} (h : id.uuid = "") :
    ofText id.text = .error (.noUuid id.text) := by
  have hsplit : Text.splitLast? ':' id.text.toList
      = some ([], Text.digits 16 id.generation.toNat) := by
    apply Text.splitLast?_eq_some_iff.mpr
    rw [toList_text, h]
    exact ⟨rfl, id.colon_notMem_generation⟩
  simp only [ofText, hsplit, List.isEmpty_nil, if_true]

/-- Exactly the texts that name a peer are accepted, each as the peer it names; all others are
invalid messages. An identifier is read back from its own text, unless it has no uuid. -/
theorem ofText_decided :
    (∀ text uuid n, Names text uuid n →
      ofText text = .ok ⟨String.ofList uuid, UInt32.ofNat n⟩) ∧
    (∀ text, (¬ ∃ uuid n, Names text uuid n) → ∃ fault, ofText text = .error fault ∧
      (Round.Fault.identifier fault).message = "invalid message: " ++ fault.message) ∧
    (∀ id : PeerIdentifier, id.uuid ≠ "" → ofText id.text = .ok id) ∧
    ∀ id : PeerIdentifier, id.uuid = "" → ofText id.text = .error (.noUuid id.text) := by
  refine ⟨fun _ _ _ h => ofText_of_names h, ?_, ?_, fun _ h => ofText_text_of_empty h⟩
  · intro text hno
    cases hread : ofText text with
    | error fault => exact ⟨fault, rfl, rfl⟩
    | ok id => exact absurd (names_of_ofText hread) hno
  · intro id huuid
    rw [ofText_of_names (names_text huuid), String.ofList_toList, UInt32.ofNat_toNat]

end PeerIdentifier

end BeaconMesh
