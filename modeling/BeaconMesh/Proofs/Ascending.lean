import BeaconMesh.Round.Config
import Mathlib.Data.List.Nodup

/-!
A set has one ascending list: putting an element into its place keeps the list ascending, and
ascending lists with the same elements are equal.
-/

set_option autoImplicit false
set_option relaxedAutoImplicit false

namespace BeaconMesh

namespace Ascending

variable {α : Type} {le : α → α → Bool}

/-- One element after the other in the order of `le`, none of them twice. -/
def IsAscending (le : α → α → Bool) (xs : List α) : Prop :=
  xs.Pairwise fun a b => le a b = true ∧ a ≠ b

theorem isAscending_insert [DecidableEq α]
    (htrans : ∀ a b c, le a b = true → le b c = true → le a c = true)
    (htotal : ∀ a b, le a b = true ∨ le b a = true)
    (hantisymm : ∀ a b, le a b = true → le b a = true → a = b) (a : α) {xs : List α}
    (h : IsAscending le xs) : IsAscending le (insert le a xs) := by
  induction xs with
  | nil => exact List.pairwise_singleton _ _
  | cons x rest ih =>
    obtain ⟨hfirst, hrest⟩ := List.pairwise_cons.mp h
    unfold insert
    split
    · exact h
    · rename_i hne
      split
      · rename_i hle
        refine List.pairwise_cons.mpr ⟨?_, h⟩
        intro b hb
        rcases List.mem_cons.mp hb with rfl | hb
        · exact ⟨hle, hne⟩
        · refine ⟨htrans a x b hle (hfirst b hb).1, ?_⟩
          rintro rfl
          exact hne (hantisymm a x hle (hfirst a hb).1)
      · rename_i hle
        refine List.pairwise_cons.mpr ⟨?_, ih hrest⟩
        intro b hb
        rcases (mem_insert le a b rest).mp hb with rfl | hb
        · exact ⟨(htotal x b).resolve_right hle, Ne.symm hne⟩
        · exact hfirst b hb

theorem eq_of_mem_iff (hantisymm : ∀ a b, le a b = true → le b a = true → a = b)
    {xs ys : List α} (hxs : IsAscending le xs) (hys : IsAscending le ys)
    (h : ∀ a, a ∈ xs ↔ a ∈ ys) : xs = ys := by
  have hxsNodup : xs.Nodup := hxs.imp And.right
  have hysNodup : ys.Nodup := hys.imp And.right
  have hperm : xs.Perm ys := (List.perm_ext_iff_of_nodup hxsNodup hysNodup).mpr h
  have hle : ∀ {zs : List α}, IsAscending le zs → zs.Pairwise fun a b => le a b = true :=
    fun h => h.imp And.left
  exact List.Perm.eq_of_pairwise (fun a b _ _ => hantisymm a b) (hle hxs) (hle hys) hperm

end Ascending

namespace Uuid

theorem le_trans (a b c : Uuid) (hab : le a b = true) (hbc : le b c = true) : le a c = true := by
  simp only [le, decide_eq_true_iff] at *
  exact List.le_trans hab hbc

theorem le_total (a b : Uuid) : le a b = true ∨ le b a = true := by
  simp only [le, decide_eq_true_iff]
  exact List.le_total a.bytes b.bytes

theorem le_antisymm (a b : Uuid) (hab : le a b = true) (hba : le b a = true) : a = b := by
  simp only [le, decide_eq_true_iff] at hab hba
  have hbytes : a.bytes = b.bytes := List.le_antisymm hab hba
  obtain ⟨⟨as, has⟩⟩ := a
  obtain ⟨⟨bs, hbs⟩⟩ := b
  obtain rfl : as = bs := hbytes
  rfl

namespace Set

theorem isAscending_insert (u : Uuid) {s : Set} (h : Ascending.IsAscending le s) :
    Ascending.IsAscending le (insert u s) :=
  Ascending.isAscending_insert le_trans le_total le_antisymm u h

theorem isAscending_ofList (us : List Uuid) : Ascending.IsAscending le (ofList us) := by
  induction us with
  | nil => exact .nil
  | cons u us ih => exact isAscending_insert u ih

theorem ext {s t : Set} (hs : Ascending.IsAscending le s) (ht : Ascending.IsAscending le t)
    (h : ∀ u, u ∈ s ↔ u ∈ t) : s = t :=
  Ascending.eq_of_mem_iff le_antisymm hs ht h

theorem eq_or_eq_insert {s t : Set} {u : Uuid} (hs : Ascending.IsAscending le s)
    (ht : Ascending.IsAscending le t) (hmore : ∀ v ∈ t, v ∈ s) (hfew : ∀ v ∈ s, v ∈ t ∨ v = u)
    (hu : u ∉ t) : (s = t ↔ u ∉ s) ∧ (s = insert u t ↔ u ∈ s) := by
  have hinsert : ∀ v, v ∈ insert u t ↔ v = u ∨ v ∈ t := fun v => Ascending.mem_insert le u v t
  constructor
  · constructor
    · rintro rfl
      exact hu
    · intro hnot
      refine ext hs ht fun v => ⟨fun hv => (hfew v hv).resolve_right ?_, hmore v⟩
      rintro rfl
      exact hnot hv
  · constructor
    · intro heq
      rw [heq, hinsert]
      exact .inl rfl
    · intro hmem
      refine ext hs (isAscending_insert u ht) fun v => ?_
      rw [hinsert]
      constructor
      · exact fun hv => (hfew v hv).symm
      · rintro (rfl | hv)
        · exact hmem
        · exact hmore v hv

end Set

end Uuid

end BeaconMesh
