import BeaconMesh.Text.Blank
import Mathlib.Data.List.TakeWhile

/-!
Lists separated by commas: which entries a text lists, and that just these are found. White space
around an entry and parts that are white space only make no difference, and the order is kept.
-/

set_option autoImplicit false
set_option relaxedAutoImplicit false

namespace BeaconMesh.Text

def Blanks (cs : List Char) : Prop := ∀ c ∈ cs, isBlank c = true

structure Bare (cs : List Char) : Prop where
  head : ∀ c ∈ cs.head?, isBlank c = false
  last : ∀ c ∈ cs.getLast?, isBlank c = false

/-- The text is this one with white space around. -/
def Dressed (inner cs : List Char) : Prop :=
  Bare inner ∧ ∃ before after, Blanks before ∧ Blanks after ∧ cs = before ++ inner ++ after

structure IsEntry (cs : List Char) : Prop extends Bare cs where
  ne_nil : cs ≠ []
  no_comma : ',' ∉ cs

/-- A text without a comma lists one entry, if it is not white space only. -/
inductive Part : List Char → List (List Char) → Prop
  | blank {cs : List Char} (h : Blanks cs) : Part cs []
  | entry {before entry after : List Char} (hbefore : Blanks before) (hentry : IsEntry entry)
      (hafter : Blanks after) : Part (before ++ entry ++ after) [entry]

/-- The text lists these entries in this order. -/
inductive Lists : List Char → List (List Char) → Prop
  | one {cs : List Char} {es : List (List Char)} (h : Part cs es) : Lists cs es
  | more {cs rest : List Char} {es others : List (List Char)} (h : Part cs es)
      (hrest : Lists rest others) : Lists (cs ++ ',' :: rest) (es ++ others)

variable {cs part rest before after entry : List Char} {es : List (List Char)}

section Trimming

private theorem dropWhile_blanks_append (h : Blanks before) :
    (before ++ cs).dropWhile isBlank = cs.dropWhile isBlank := by
  induction before with
  | nil => rfl
  | cons c before ih =>
    obtain ⟨hc, hbefore⟩ := List.forall_mem_cons.mp h
    rw [List.cons_append, List.dropWhile_cons_of_pos hc, ih hbefore]

private theorem dropWhile_of_head (h : ∀ c ∈ cs.head?, isBlank c = false) :
    cs.dropWhile isBlank = cs := by
  cases cs with
  | nil => rfl
  | cons c cs => exact List.dropWhile_cons_of_neg (by simp [h c rfl])

private theorem head?_dropWhile (cs : List Char) :
    ∀ c ∈ (cs.dropWhile isBlank).head?, isBlank c = false := by
  intro c hc
  have hnot := List.head?_dropWhile_not isBlank cs
  rw [Option.mem_def.mp hc] at hnot
  simpa using hnot

private theorem blanks_takeWhile (cs : List Char) : Blanks (cs.takeWhile isBlank) :=
  fun _ hc => List.mem_takeWhile_imp hc

private theorem Blanks.reverse (h : Blanks cs) : Blanks cs.reverse :=
  fun c hc => h c (List.mem_reverse.mp hc)

private theorem trimmed_dressed (hbefore : Blanks before) (hcs : Bare cs) (hafter : Blanks after) :
    trimmed (before ++ cs ++ after) = cs := by
  rw [trimmed, List.append_assoc, dropWhile_blanks_append hbefore]
  rcases eq_or_ne cs [] with rfl | hne
  · have hnone : (after ++ []).dropWhile isBlank = [] := dropWhile_blanks_append hafter
    rw [List.append_nil] at hnone
    rw [List.nil_append, hnone]
    rfl
  · have hhead : ∀ c ∈ (cs ++ after).head?, isBlank c = false := by
      obtain ⟨c, cs, rfl⟩ := List.exists_cons_of_ne_nil hne
      exact hcs.head
    have hlast : ∀ c ∈ cs.reverse.head?, isBlank c = false := by
      rw [List.head?_reverse]
      exact hcs.last
    rw [dropWhile_of_head hhead, List.reverse_append, dropWhile_blanks_append hafter.reverse,
      dropWhile_of_head hlast, List.reverse_reverse]

private theorem dressed_trimmed (cs : List Char) : Dressed (trimmed cs) cs := by
  have hinner : cs.dropWhile isBlank
      = trimmed cs ++ ((cs.dropWhile isBlank).reverse.takeWhile isBlank).reverse := by
    rw [trimmed, ← List.reverse_append, List.takeWhile_append_dropWhile, List.reverse_reverse]
  refine ⟨⟨?_, ?_⟩, cs.takeWhile isBlank,
    ((cs.dropWhile isBlank).reverse.takeWhile isBlank).reverse, blanks_takeWhile cs,
    (blanks_takeWhile _).reverse, ?_⟩
  · intro c hc
    apply head?_dropWhile cs
    rw [hinner, List.head?_append, Option.mem_def.mp hc]
    rfl
  · rw [trimmed, List.getLast?_reverse]
    exact head?_dropWhile _
  · rw [List.append_assoc, ← hinner, List.takeWhile_append_dropWhile]

theorem trimmed_eq_iff {inner : List Char} : trimmed cs = inner ↔ Dressed inner cs := by
  constructor
  · rintro rfl
    exact dressed_trimmed cs
  · rintro ⟨hbare, before, after, hbefore, hafter, rfl⟩
    exact trimmed_dressed hbefore hbare hafter

end Trimming

section Splitting

theorem splitOn_of_not_mem (h : ',' ∉ cs) : splitOn ',' cs = [cs] := by
  induction cs with
  | nil => rfl
  | cons c cs ih =>
    obtain ⟨hc, hcs⟩ := not_or.mp (mt List.mem_cons.mpr h)
    rw [splitOn, if_neg (Ne.symm hc), ih hcs]

theorem splitOn_append (h : ',' ∉ part) :
    splitOn ',' (part ++ ',' :: rest) = part :: splitOn ',' rest := by
  induction part with
  | nil => rw [List.nil_append, splitOn, if_pos rfl]
  | cons c part ih =>
    obtain ⟨hc, hpart⟩ := not_or.mp (mt List.mem_cons.mpr h)
    rw [List.cons_append, splitOn, if_neg (Ne.symm hc), ih hpart]

theorem entries_append (h : ',' ∉ part) :
    entries (part ++ ',' :: rest) = entries part ++ entries rest := by
  simp only [entries, splitOn_append h, splitOn_of_not_mem h, List.map_cons, List.map_nil]
  exact List.filter_append [trimmed part] _

end Splitting

section Listing

theorem Part.no_comma (h : Part cs es) : ',' ∉ cs := by
  have hblanks : ∀ {cs}, Blanks cs → ',' ∉ cs := fun hcs hmem => by
    have := hcs ',' hmem
    revert this
    decide
  cases h with
  | blank h => exact hblanks h
  | entry hbefore hentry hafter =>
    simp only [List.mem_append, not_or]
    exact ⟨⟨hblanks hbefore, hentry.no_comma⟩, hblanks hafter⟩

theorem Part.isEntry (h : Part cs es) : ∀ e ∈ es, IsEntry e := by
  cases h with
  | blank => simp
  | entry _ hentry _ => simpa using hentry

theorem Lists.isEntry (h : Lists cs es) : ∀ e ∈ es, IsEntry e := by
  induction h with
  | one h => exact h.isEntry
  | more h _ ih => exact List.forall_mem_append.mpr ⟨h.isEntry, ih⟩

theorem IsEntry.lists (h : IsEntry entry) : Lists entry [entry] := by
  have hpart : Part ([] ++ entry ++ []) [entry] :=
    .entry (by simp [Blanks]) h (by simp [Blanks])
  rw [List.append_nil] at hpart
  exact .one hpart

private theorem entries_of_not_mem (h : ',' ∉ cs) :
    entries cs = if trimmed cs = [] then [] else [trimmed cs] := by
  rw [entries, splitOn_of_not_mem h]
  split <;> simp_all

theorem Part.entries_eq (h : Part cs es) : entries cs = es := by
  rw [entries_of_not_mem h.no_comma]
  cases h with
  | blank h =>
    have hdressed : Dressed [] cs := ⟨⟨by simp, by simp⟩, [], cs, by simp [Blanks], h, rfl⟩
    exact if_pos (trimmed_eq_iff.mpr hdressed)
  | entry hbefore hentry hafter =>
    rw [trimmed_dressed hbefore hentry.toBare hafter, if_neg hentry.ne_nil]

theorem part_entries (h : ',' ∉ cs) : Part cs (entries cs) := by
  obtain ⟨hbare, before, after, hbefore, hafter, hcs⟩ := dressed_trimmed cs
  rw [entries_of_not_mem h]
  split
  · rename_i hnone
    rw [hnone, List.append_nil] at hcs
    refine .blank fun c hc => ?_
    rw [hcs] at hc
    exact (List.mem_append.mp hc).elim (hbefore c) (hafter c)
  · rename_i hsome
    have hcomma : ',' ∉ trimmed cs := fun hmem => h (hcs ▸ by simp [hmem])
    have hpart := Part.entry hbefore ⟨hbare, hsome, hcomma⟩ hafter
    rwa [← hcs] at hpart

theorem lists_entries (cs : List Char) : Lists cs (entries cs) := by
  by_cases hcomma : ',' ∈ cs
  · obtain ⟨part, rest, rfl, hpart⟩ := List.eq_append_cons_of_mem hcomma
    rw [entries_append hpart]
    exact .more (part_entries hpart) (lists_entries rest)
  · exact .one (part_entries hcomma)
termination_by cs.length

/-- Exactly the entries that a text lists are found in it. -/
theorem entries_eq_iff : entries cs = es ↔ Lists cs es := by
  constructor
  · rintro rfl
    exact lists_entries cs
  · intro h
    induction h with
    | one h => exact h.entries_eq
    | more h _ ih => rw [entries_append h.no_comma, h.entries_eq, ih]

example : entries " a,, b c ,".toList = ["a".toList, "b c".toList] := by decide

end Listing

end BeaconMesh.Text
