import BeaconMesh.Proofs.Json.Literals
import Mathlib.Data.List.DropRight

/-!
The grammar of JSON documents, with white space between their parts, that reading a text gives a
value just when the text is written for that value by the grammar, and that rendering writes so.
-/

set_option autoImplicit false
set_option relaxedAutoImplicit false

namespace BeaconMesh.Json

/-- White space that counts for nothing between the parts of a document. -/
def Blank (cs : List Char) : Prop := ∀ c ∈ cs, c = ' ' ∨ c = '\t' ∨ c = '\n' ∨ c = '\r'

mutual

/-- The characters are a text for the value. -/
inductive Written : Value → List Char → Prop
  | null : Written .null "null".toList
  | yes : Written (.bool true) "true".toList
  | no : Written (.bool false) "false".toList
  | number {literal : List Char} (h : Numeral literal) : Written (.number literal) literal
  | string {inside : List Char} (h : Inside inside) :
      Written (.string inside) ('"' :: (inside ++ ['"']))
  | noItems {blank : List Char} (h : Blank blank) : Written (.array []) ('[' :: (blank ++ [']']))
  | items {items : List Value} {cs : List Char} (h : ItemsWritten items cs) :
      Written (.array items) ('[' :: (cs ++ [']']))
  | noMembers {blank : List Char} (h : Blank blank) :
      Written (.object []) ('\x7b' :: (blank ++ ['\x7d']))
  | members {members : List (List Char × Value)} {cs : List Char} (h : MembersWritten members cs) :
      Written (.object members) ('\x7b' :: (cs ++ ['\x7d']))

inductive ItemsWritten : List Value → List Char → Prop
  | last {v : Value} {front cs back : List Char} (hfront : Blank front) (hv : Written v cs)
      (hback : Blank back) : ItemsWritten [v] (front ++ (cs ++ back))
  | more {v : Value} {items : List Value} {front cs back rest : List Char} (hfront : Blank front)
      (hv : Written v cs) (hback : Blank back) (hrest : ItemsWritten items rest) :
      ItemsWritten (v :: items) (front ++ (cs ++ (back ++ ',' :: rest)))

inductive MembersWritten : List (List Char × Value) → List Char → Prop
  | last {name : List Char} {v : Value} {front mid gap cs back : List Char} (hfront : Blank front)
      (hname : Inside name) (hmid : Blank mid) (hgap : Blank gap) (hv : Written v cs)
      (hback : Blank back) :
      MembersWritten [(name, v)]
        (front ++ '"' :: (name ++ '"' :: (mid ++ ':' :: (gap ++ (cs ++ back)))))
  | more {name : List Char} {v : Value} {members : List (List Char × Value)}
      {front mid gap cs back rest : List Char} (hfront : Blank front) (hname : Inside name)
      (hmid : Blank mid) (hgap : Blank gap) (hv : Written v cs) (hback : Blank back)
      (hrest : MembersWritten members rest) :
      MembersWritten ((name, v) :: members)
        (front ++ '"' :: (name ++ '"' :: (mid ++ ':' :: (gap ++ (cs ++ (back ++ ',' :: rest))))))

end

/-- A text for a value, white space around it allowed. -/
def Document (v : Value) (s : String) : Prop :=
  ∃ front cs back, Blank front ∧ Written v cs ∧ Blank back ∧ s.toList = front ++ (cs ++ back)

variable {v : Value} {items : List Value} {members : List (List Char × Value)}
variable {cs rest taken blank : List Char} {c : Char} {fuel : Nat}

section Blanks

theorem skipBlank_append (h : Blank blank) (cs : List Char) :
    skipBlank (blank ++ cs) = skipBlank cs := by
  apply List.dropWhile_append_of_pos
  intro c hc
  rcases h c hc with rfl | rfl | rfl | rfl <;> rfl

theorem skipBlank_skipBlank (cs : List Char) : skipBlank (skipBlank cs) = skipBlank cs :=
  List.dropWhile_idempotent _ _

theorem exists_blank (cs : List Char) : ∃ blank, Blank blank ∧ cs = blank ++ skipBlank cs := by
  refine ⟨_, fun c hc => ?_, List.takeWhile_append_dropWhile.symm⟩
  simpa [or_assoc] using List.mem_takeWhile_imp hc

theorem numeralFree_cons (h : c.isDigit = false ∧ c ≠ '.' ∧ c ≠ 'e' ∧ c ≠ 'E') :
    NumeralFree (c :: rest) := by
  rintro _ ⟨⟩
  exact h

theorem numeralFree_append (h : Blank blank) (hrest : NumeralFree rest) :
    NumeralFree (blank ++ rest) := by
  cases blank with
  | nil => exact hrest
  | cons c blank =>
    apply numeralFree_cons
    rcases h c List.mem_cons_self with rfl | rfl | rfl | rfl <;> decide

end Blanks

section Completeness

def Opening (c : Char) : Prop := c ∉ [' ', '\t', '\n', '\r', ']', '\x7d']

instance : DecidablePred Opening := fun c =>
  inferInstanceAs (Decidable (c ∉ [' ', '\t', '\n', '\r', ']', '\x7d']))

theorem Written.begins (h : Written v cs) : ∃ c tail, cs = c :: tail ∧ Opening c := by
  have hother : ∀ d ∈ [' ', '\t', '\n', '\r', ']', '\x7d'], ¬ (d.isDigit ∨ d = '-') := by simp
  cases h with
  | number h =>
    obtain ⟨c, tail, rfl, hc⟩ := h.begins
    exact ⟨c, tail, rfl, fun hmem => hother c hmem hc⟩
  | _ => exact ⟨_, _, rfl, by decide⟩

theorem skipBlank_of_opening (hc : Opening c) : skipBlank (c :: cs) = c :: cs := by
  simp only [Opening, List.mem_cons, not_or] at hc
  obtain ⟨hspace, htab, hfeed, hreturn, -⟩ := hc
  simp [skipBlank, hspace, htab, hfeed, hreturn]

theorem ItemsWritten.begins (h : ItemsWritten items cs) (rest : List Char) :
    ∃ c tail, skipBlank (cs ++ rest) = c :: tail ∧ Opening c := by
  cases h with
  | last hfront hv _ | more hfront hv _ _ =>
    obtain ⟨c, tail, rfl, hc⟩ := hv.begins
    rw [List.append_assoc, skipBlank_append hfront]
    exact ⟨c, _, skipBlank_of_opening hc, hc⟩

theorem MembersWritten.begins (h : MembersWritten members cs) (rest : List Char) :
    ∃ tail, skipBlank (cs ++ rest) = '"' :: tail := by
  cases h with
  | last hfront _ _ _ _ _ | more hfront _ _ _ _ _ _ =>
    rw [List.append_assoc, skipBlank_append hfront]
    exact ⟨_, skipBlank_of_opening (by decide)⟩

theorem readItems_skipBlank (cs : List Char) :
    readItems fuel (skipBlank cs) = readItems fuel cs := by
  cases fuel with
  | zero => rfl
  | succ fuel => rw [readItems, readItems, skipBlank_skipBlank]

theorem readMembers_skipBlank (cs : List Char) :
    readMembers fuel (skipBlank cs) = readMembers fuel cs := by
  cases fuel with
  | zero => rfl
  | succ fuel => rw [readMembers, readMembers, skipBlank_skipBlank]

private theorem readValue_numeral (h : Numeral cs) (hrest : NumeralFree rest) :
    readValue (fuel + 1) (cs ++ rest) = some (.number cs, rest) := by
  have hscan := scanNumber_append h hrest
  have hother : ∀ d ∈ ['n', 't', 'f', '"', '[', '\x7b'], ¬ (d.isDigit ∨ d = '-') := by simp
  obtain ⟨c, tail, rfl, hc⟩ := h.begins
  have hne : c ∉ ['n', 't', 'f', '"', '[', '\x7b'] := fun hmem => hother c hmem hc
  simp only [List.mem_cons, not_or] at hne
  obtain ⟨hn, ht, hf, hquote, hbracket, hbrace, -⟩ := hne
  rw [List.cons_append] at hscan ⊢
  rw [readValue, if_neg hn, if_neg ht, if_neg hf, if_neg hquote, if_neg hbracket, if_neg hbrace,
    hscan]
  rfl

private theorem readValue_string (h : Inside cs) :
    readValue (fuel + 1) ('"' :: (cs ++ '"' :: rest)) = some (.string cs, rest) := by
  rw [readValue, scanString_inside h]
  rfl

private theorem readValue_noItems (h : Blank blank) :
    readValue (fuel + 1) ('[' :: (blank ++ ']' :: rest)) = some (.array [], rest) := by
  have hskip : skipBlank (blank ++ ']' :: rest) = ']' :: rest := skipBlank_append h _
  simp [readValue, hskip]

private theorem readValue_items (h : ItemsWritten items cs)
    (hread : readItems fuel (cs ++ rest) = some (items, taken)) :
    readValue (fuel + 1) ('[' :: (cs ++ rest)) = some (.array items, taken) := by
  obtain ⟨c, tail, hskip, hc⟩ := h.begins rest
  have hclose : c ≠ ']' := fun h => hc (by simp [h])
  have hitems : readItems fuel (c :: tail) = some (items, taken) := by
    rw [← hskip, readItems_skipBlank, hread]
  simp [readValue, hskip, hclose, hitems]

private theorem readValue_noMembers (h : Blank blank) :
    readValue (fuel + 1) ('\x7b' :: (blank ++ '\x7d' :: rest)) = some (.object [], rest) := by
  have hskip : skipBlank (blank ++ '\x7d' :: rest) = '\x7d' :: rest := skipBlank_append h _
  simp [readValue, hskip]

private theorem readValue_members (h : MembersWritten members cs)
    (hread : readMembers fuel (cs ++ rest) = some (members, taken)) :
    readValue (fuel + 1) ('\x7b' :: (cs ++ rest)) = some (.object members, taken) := by
  obtain ⟨tail, hskip⟩ := h.begins rest
  have hmembers : readMembers fuel ('"' :: tail) = some (members, taken) := by
    rw [← hskip, readMembers_skipBlank, hread]
  simp [readValue, hskip, hmembers]

theorem Written.skipBlank_append (h : Written v cs) (rest : List Char) :
    skipBlank (cs ++ rest) = cs ++ rest := by
  obtain ⟨c, tail, rfl, hc⟩ := h.begins
  exact skipBlank_of_opening hc

section Steps

variable {front back name mid gap : List Char} (hfront : Blank front) (hname : Inside name)
  (hmid : Blank mid) (hgap : Blank gap) (hv : Written v cs) (hback : Blank back)
include hfront hv hback

private theorem readItems_last
    (hread : readValue fuel (cs ++ (back ++ ']' :: rest)) = some (v, back ++ ']' :: rest)) :
    readItems (fuel + 1) (front ++ (cs ++ (back ++ ']' :: rest))) = some ([v], rest) := by
  have hclose : skipBlank (back ++ ']' :: rest) = ']' :: rest := skipBlank_append hback _
  rw [readItems, skipBlank_append hfront, hv.skipBlank_append, hread]
  simp only [hclose]

private theorem readItems_more
    (hread : readValue fuel (cs ++ (back ++ ',' :: rest)) = some (v, back ++ ',' :: rest))
    (hmore : readItems fuel rest = some (items, taken)) :
    readItems (fuel + 1) (front ++ (cs ++ (back ++ ',' :: rest))) = some (v :: items, taken) := by
  have hcomma : skipBlank (back ++ ',' :: rest) = ',' :: rest := skipBlank_append hback _
  rw [readItems, skipBlank_append hfront, hv.skipBlank_append, hread]
  simp only [hcomma, hmore, Option.map_some]

include hname hmid hgap

private theorem readMembers_last
    (hread : readValue fuel (cs ++ (back ++ '\x7d' :: rest)) = some (v, back ++ '\x7d' :: rest)) :
    readMembers (fuel + 1)
        (front ++ '"' :: (name ++ '"' :: (mid ++ ':' :: (gap ++ (cs ++ (back ++ '\x7d' :: rest))))))
      = some ([(name, v)], rest) := by
  have hclose : skipBlank (back ++ '\x7d' :: rest) = '\x7d' :: rest := skipBlank_append hback _
  rw [readMembers, skipBlank_append hfront, skipBlank_of_opening (by decide)]
  simp only [scanString_inside hname, skipBlank_append hmid, skipBlank_append hgap,
    hv.skipBlank_append, hread, hclose, skipBlank_of_opening (c := ':') (by decide)]

private theorem readMembers_more
    (hread : readValue fuel (cs ++ (back ++ ',' :: rest)) = some (v, back ++ ',' :: rest))
    (hmore : readMembers fuel rest = some (members, taken)) :
    readMembers (fuel + 1)
        (front ++ '"' :: (name ++ '"' :: (mid ++ ':' :: (gap ++ (cs ++ (back ++ ',' :: rest))))))
      = some ((name, v) :: members, taken) := by
  have hcomma : skipBlank (back ++ ',' :: rest) = ',' :: rest := skipBlank_append hback _
  rw [readMembers, skipBlank_append hfront, skipBlank_of_opening (by decide)]
  simp only [scanString_inside hname, skipBlank_append hmid, skipBlank_append hgap,
    hv.skipBlank_append, hread, hcomma, hmore, skipBlank_of_opening (c := ':') (by decide),
    Option.map_some]

end Steps

private theorem exists_succ {n : Nat} (h : 0 < n) : ∃ m, n = m + 1 := ⟨n - 1, by omega⟩

private theorem Written.exists_succ (h : Written v cs) (hfuel : 2 * cs.length ≤ fuel) :
    ∃ n, fuel = n + 1 := by
  obtain ⟨c, tail, rfl, -⟩ := h.begins
  rw [List.length_cons] at hfuel
  exact Json.exists_succ (by omega)

-- By recursion on what is written. Of two nested calls one at least takes a character, so that
-- twice the length of the text is fuel enough.
mutual

theorem readValue_written {v : Value} {cs : List Char} :
    Written v cs → ∀ {fuel : Nat} {rest : List Char}, 2 * cs.length ≤ fuel → NumeralFree rest →
      readValue fuel (cs ++ rest) = some (v, rest)
  | .null, fuel, rest, hfuel, _ => by
    obtain ⟨fuel, rfl⟩ := Written.null.exists_succ hfuel
    rfl
  | .yes, fuel, rest, hfuel, _ => by
    obtain ⟨fuel, rfl⟩ := Written.yes.exists_succ hfuel
    rfl
  | .no, fuel, rest, hfuel, _ => by
    obtain ⟨fuel, rfl⟩ := Written.no.exists_succ hfuel
    rfl
  | .number h, fuel, rest, hfuel, hrest => by
    obtain ⟨fuel, rfl⟩ := (Written.number h).exists_succ hfuel
    exact readValue_numeral h hrest
  | .string h, fuel, rest, hfuel, _ => by
    obtain ⟨fuel, rfl⟩ := (Written.string h).exists_succ hfuel
    rw [List.cons_append, List.append_assoc]
    exact readValue_string h
  | .noItems h, fuel, rest, hfuel, _ => by
    obtain ⟨fuel, rfl⟩ := (Written.noItems h).exists_succ hfuel
    rw [List.cons_append, List.append_assoc]
    exact readValue_noItems h
  | .items h, fuel, rest, hfuel, _ => by
    obtain ⟨fuel, rfl⟩ := (Written.items h).exists_succ hfuel
    simp only [List.length_cons, List.length_append] at hfuel
    rw [List.cons_append, List.append_assoc]
    exact readValue_items h (readItems_written h (by omega))
  | .noMembers h, fuel, rest, hfuel, _ => by
    obtain ⟨fuel, rfl⟩ := (Written.noMembers h).exists_succ hfuel
    rw [List.cons_append, List.append_assoc]
    exact readValue_noMembers h
  | .members h, fuel, rest, hfuel, _ => by
    obtain ⟨fuel, rfl⟩ := (Written.members h).exists_succ hfuel
    simp only [List.length_cons, List.length_append] at hfuel
    rw [List.cons_append, List.append_assoc]
    exact readValue_members h (readMembers_written h (by omega))

theorem readItems_written {items : List Value} {cs : List Char} :
    ItemsWritten items cs → ∀ {fuel : Nat} {rest : List Char}, 2 * cs.length + 1 ≤ fuel →
      readItems fuel (cs ++ ']' :: rest) = some (items, rest)
  | .last hfront hv hback, fuel, rest, hfuel => by
    simp only [List.length_append] at hfuel
    obtain ⟨fuel, rfl⟩ := exists_succ (by omega : 0 < fuel)
    simp only [List.append_assoc]
    exact readItems_last hfront hv hback
      (readValue_written hv (by omega) (numeralFree_append hback (numeralFree_cons (by decide))))
  | .more hfront hv hback hmore, fuel, rest, hfuel => by
    simp only [List.length_append, List.length_cons] at hfuel
    obtain ⟨fuel, rfl⟩ := exists_succ (by omega : 0 < fuel)
    simp only [List.append_assoc, List.cons_append]
    exact readItems_more hfront hv hback
      (readValue_written hv (by omega) (numeralFree_append hback (numeralFree_cons (by decide))))
      (readItems_written hmore (by omega))

theorem readMembers_written {members : List (List Char × Value)} {cs : List Char} :
    MembersWritten members cs → ∀ {fuel : Nat} {rest : List Char}, 2 * cs.length + 1 ≤ fuel →
      readMembers fuel (cs ++ '\x7d' :: rest) = some (members, rest)
  | .last hfront hname hmid hgap hv hback, fuel, rest, hfuel => by
    simp only [List.length_append, List.length_cons] at hfuel
    obtain ⟨fuel, rfl⟩ := exists_succ (by omega : 0 < fuel)
    simp only [List.append_assoc, List.cons_append]
    exact readMembers_last hfront hname hmid hgap hv hback
      (readValue_written hv (by omega) (numeralFree_append hback (numeralFree_cons (by decide))))
  | .more hfront hname hmid hgap hv hback hmore, fuel, rest, hfuel => by
    simp only [List.length_append, List.length_cons] at hfuel
    obtain ⟨fuel, rfl⟩ := exists_succ (by omega : 0 < fuel)
    simp only [List.append_assoc, List.cons_append]
    exact readMembers_more hfront hname hmid hgap hv hback
      (readValue_written hv (by omega) (numeralFree_append hback (numeralFree_cons (by decide))))
      (readMembers_written hmore (by omega))

end

end Completeness

section Soundness

private theorem eq_append_of_scanWord {word : List Char} (h : scanWord word cs = some rest) :
    cs = word ++ rest := by
  fun_induction scanWord word cs with
  | case1 => exact Option.some.inj h
  | case2 word c cs ih => rw [ih h, List.cons_append]
  | case3 => cases h
  | case4 => cases h

private theorem of_map_scanWord {word : List Char} {w : Value}
    (h : (scanWord word cs).map (fun after => (w, after)) = some (v, rest)) :
    v = w ∧ cs = word ++ rest := by
  obtain ⟨after, hscan, heq⟩ := Option.map_eq_some_iff.mp h
  cases heq
  exact ⟨rfl, eq_append_of_scanWord hscan⟩

private def Sound (fuel : Nat) : Prop :=
  (∀ {cs v rest}, readValue fuel cs = some (v, rest) →
    ∃ taken, cs = taken ++ rest ∧ Written v taken) ∧
  (∀ {cs items rest}, readItems fuel cs = some (items, rest) →
    ∃ taken, cs = taken ++ ']' :: rest ∧ ItemsWritten items taken) ∧
  ∀ {cs members rest}, readMembers fuel cs = some (members, rest) →
    ∃ taken, cs = taken ++ '\x7d' :: rest ∧ MembersWritten members taken

private theorem written_of_readValue (hsound : Sound fuel)
    (h : readValue (fuel + 1) (c :: cs) = some (v, rest)) :
    ∃ taken, c :: cs = taken ++ rest ∧ Written v taken := by
  obtain ⟨-, hitems, hmembers⟩ := hsound
  rw [readValue] at h
  split at h
  · obtain ⟨rfl, rfl⟩ := of_map_scanWord h
    subst c
    exact ⟨_, rfl, .null⟩
  split at h
  · obtain ⟨rfl, rfl⟩ := of_map_scanWord h
    subst c
    exact ⟨_, rfl, .yes⟩
  split at h
  · obtain ⟨rfl, rfl⟩ := of_map_scanWord h
    subst c
    exact ⟨_, rfl, .no⟩
  split at h
  · obtain ⟨⟨inside, after⟩, hscan, heq⟩ := Option.map_eq_some_iff.mp h
    cases heq
    obtain ⟨rfl, hinside⟩ := inside_of_scanString hscan
    subst c
    exact ⟨_, by simp, .string hinside⟩
  split at h
  · obtain ⟨blank, hblank, htail⟩ := exists_blank cs
    subst c
    split at h
    · rename_i hskip
      cases h
      rw [hskip] at htail
      exact ⟨_, by rw [htail]; simp, .noItems hblank⟩
    · obtain ⟨⟨items, after⟩, hread, heq⟩ := Option.map_eq_some_iff.mp h
      cases heq
      rw [readItems_skipBlank] at hread
      obtain ⟨taken, rfl, htaken⟩ := hitems hread
      exact ⟨_, by simp, .items htaken⟩
  split at h
  · obtain ⟨blank, hblank, htail⟩ := exists_blank cs
    subst c
    split at h
    · rename_i hskip
      cases h
      rw [hskip] at htail
      exact ⟨_, by rw [htail]; simp, .noMembers hblank⟩
    · obtain ⟨⟨members, after⟩, hread, heq⟩ := Option.map_eq_some_iff.mp h
      cases heq
      rw [readMembers_skipBlank] at hread
      obtain ⟨taken, rfl, htaken⟩ := hmembers hread
      exact ⟨_, by simp, .members htaken⟩
  · obtain ⟨⟨literal, after⟩, hscan, heq⟩ := Option.map_eq_some_iff.mp h
    cases heq
    obtain ⟨hcs, hnumeral⟩ := numeral_of_scanNumber hscan
    exact ⟨literal, hcs, .number hnumeral⟩

private theorem itemsWritten_of_readItems (hsound : Sound fuel)
    (h : readItems (fuel + 1) cs = some (items, rest)) :
    ∃ taken, cs = taken ++ ']' :: rest ∧ ItemsWritten items taken := by
  obtain ⟨hvalue, hitems, -⟩ := hsound
  obtain ⟨front, hfront, hcs⟩ := exists_blank cs
  rw [readItems] at h
  split at h
  · cases h
  rename_i v tail hread
  obtain ⟨taken, htaken, hv⟩ := hvalue hread
  obtain ⟨back, hback, htail⟩ := exists_blank tail
  split at h
  · rename_i hskip
    cases h
    rw [hskip] at htail
    exact ⟨_, by rw [hcs, htaken, htail]; simp, .last hfront hv hback⟩
  · rename_i after hskip
    obtain ⟨⟨more, after⟩, hmore, heq⟩ := Option.map_eq_some_iff.mp h
    cases heq
    rw [hskip] at htail
    obtain ⟨others, rfl, hothers⟩ := hitems hmore
    exact ⟨_, by rw [hcs, htaken, htail]; simp, .more hfront hv hback hothers⟩
  · cases h

private theorem membersWritten_of_readMembers (hsound : Sound fuel)
    (h : readMembers (fuel + 1) cs = some (members, rest)) :
    ∃ taken, cs = taken ++ '\x7d' :: rest ∧ MembersWritten members taken := by
  obtain ⟨hvalue, -, hmembers⟩ := hsound
  obtain ⟨front, hfront, hcs⟩ := exists_blank cs
  rw [readMembers] at h
  split at h
  case h_2 => cases h
  rename_i named hquote
  split at h
  · cases h
  rename_i name afterName hname
  obtain ⟨rfl, hinside⟩ := inside_of_scanString hname
  obtain ⟨mid, hmid, hcolon⟩ := exists_blank afterName
  split at h
  case h_2 => cases h
  rename_i afterColon hskipColon
  rw [hskipColon] at hcolon
  obtain ⟨gap, hgap, hvalueText⟩ := exists_blank afterColon
  split at h
  · cases h
  rename_i v tail hread
  obtain ⟨taken, htaken, hv⟩ := hvalue hread
  obtain ⟨back, hback, htail⟩ := exists_blank tail
  split at h
  · rename_i hskip
    cases h
    rw [hskip] at htail
    exact ⟨_, by rw [hcs, hquote, hcolon, hvalueText, htaken, htail]; simp,
      .last hfront hinside hmid hgap hv hback⟩
  · rename_i after hskip
    obtain ⟨⟨more, after⟩, hmore, heq⟩ := Option.map_eq_some_iff.mp h
    cases heq
    rw [hskip] at htail
    obtain ⟨others, rfl, hothers⟩ := hmembers hmore
    exact ⟨_, by rw [hcs, hquote, hcolon, hvalueText, htaken, htail]; simp,
      .more hfront hinside hmid hgap hv hback hothers⟩
  · cases h

private theorem sound (fuel : Nat) : Sound fuel := by
  induction fuel with
  | zero => simp [Sound, readValue, readItems, readMembers]
  | succ fuel ih =>
    refine ⟨?_, itemsWritten_of_readItems ih, membersWritten_of_readMembers ih⟩
    intro cs v rest h
    cases cs with
    | nil => cases h
    | cons c cs => exact written_of_readValue ih h

end Soundness

/-- A text is read as a value just when it is a document of that value. -/
theorem Value.ofText?_eq_some_iff {s : String} : Value.ofText? s = some v ↔ Document v s := by
  constructor
  · intro h
    simp only [Value.ofText?] at h
    split at h
    · rename_i w rest hread
      split at h
      · rename_i hrest
        cases h
        obtain ⟨front, hfront, hs⟩ := exists_blank s.toList
        obtain ⟨cs, hcs, hwritten⟩ := (sound _).1 hread
        obtain ⟨back, hback, hback'⟩ := exists_blank rest
        rw [List.isEmpty_iff.mp hrest, List.append_nil] at hback'
        exact ⟨front, cs, rest, hfront, hwritten, hback' ▸ hback, by rw [← hcs]; exact hs⟩
      · cases h
    · cases h
  · rintro ⟨front, cs, back, hfront, hwritten, hback, hs⟩
    have hskip : skipBlank s.toList = cs ++ back := by
      rw [hs, skipBlank_append hfront, hwritten.skipBlank_append]
    have hfree : NumeralFree back := by
      have hnil : NumeralFree (back ++ []) := numeralFree_append hback (by rintro c ⟨⟩)
      rwa [List.append_nil] at hnil
    have hfuel : 2 * cs.length ≤ 2 * s.toList.length + 2 := by
      simp only [hs, List.length_append]
      omega
    have hend : skipBlank back = [] := by
      have hnil := skipBlank_append hback []
      rwa [List.append_nil] at hnil
    simp only [Value.ofText?, hskip, readValue_written hwritten hfuel hfree, hend, List.isEmpty_nil,
      if_true]

section Rendering

theorem membersWritten_render (hne : members ≠ [])
    (h : ∀ m ∈ members, Inside m.1 ∧ Written m.2 m.2.render) :
    MembersWritten members (Value.renderMembers members) := by
  have hblank : Blank [] := by simp [Blank]
  induction members with
  | nil => exact absurd rfl hne
  | cons m members ih =>
    obtain ⟨⟨hname, hvalue⟩, hmembers⟩ := List.forall_mem_cons.mp h
    obtain ⟨name, v⟩ := m
    cases members with
    | nil => simpa [Value.renderMembers] using
        MembersWritten.last hblank hname hblank hblank hvalue hblank
    | cons m members => simpa [Value.renderMembers] using
        MembersWritten.more hblank hname hblank hblank hvalue hblank (ih (by simp) hmembers)

theorem written_object (hne : members ≠ [])
    (h : ∀ m ∈ members, Inside m.1 ∧ Written m.2 m.2.render) :
    Written (.object members) (Value.object members).render := by
  rw [Value.render]
  exact .members (membersWritten_render hne h)

theorem written_ofText (s : String) : Written (.ofText s) (Value.ofText s).render := by
  rw [Value.ofText, Value.render]
  exact .string (inside_escape s.toList)

theorem written_ofNat (n : Nat) : Written (.ofNat n) (Value.ofNat n).render := by
  rw [Value.ofNat, Value.render]
  exact .number (numeral_digits n)

theorem written_bool (b : Bool) : Written (.bool b) (Value.bool b).render := by
  cases b
  · exact .no
  · exact .yes

theorem document_text (h : Written v v.render) : Document v v.text := by
  have hblank : Blank [] := by simp [Blank]
  exact ⟨[], v.render, [], hblank, h, hblank, by simp [Value.text]⟩

end Rendering

section Contents

@[simp] theorem Value.text?_ofText (s : String) : (Value.ofText s).text? = some s := by
  simp [Value.ofText, Value.text?, unescape_escape]

theorem Value.nat?_ofNat {n bound : Nat} (h : n ≤ bound) : (Value.ofNat n).nat? bound = some n := by
  have hdigits : (Text.digits 10 n).all Char.isDigit = true :=
    List.all_eq_true.mpr (areDigits_digits n).2
  rw [Value.ofNat, Value.nat?, if_pos hdigits, Text.readNumber_digits (by decide) (by decide) h]
  rfl

end Contents

end BeaconMesh.Json
