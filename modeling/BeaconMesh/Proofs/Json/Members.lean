import BeaconMesh.Proofs.Json.Documents

/-!
Looking for a member of an object by its name: the order of the members and members of other names
make no difference, and a name that does not stand exactly once is not found.
-/

set_option autoImplicit false
set_option relaxedAutoImplicit false

namespace BeaconMesh.Json

abbrev Member := List Char × Value

variable {members others front back named : List Member} {known : List String} {name other : String}

/-- What stands between the quotes of the member's name stands for this name. -/
def IsNamed (name : String) (m : Member) : Prop := unescape m.1 = some name.toList

theorem isNamed_iff {m : Member} : IsNamed name m ↔ unescape m.1 = some name.toList := Iff.rfl

instance (name : String) : DecidablePred (IsNamed name) := fun m =>
  inferInstanceAs (Decidable (unescape m.1 = some name.toList))

def occurrences (name : String) (members : List Member) : Nat :=
  members.countP fun m => decide (IsNamed name m)

/-- The other members are these in any order, with any members added whose names are texts other
than the known ones. -/
def Rearranged (known : List String) (members others : List Member) : Prop :=
  ∃ added, (∀ m ∈ added, ∃ name ∉ known, IsNamed name m) ∧ others.Perm (members ++ added)

/-- Reading a text depends on an object in it, at some place, by the known members alone: their
order and other members make no difference, and each of them must stand there exactly once. -/
def ReadsMembers {α : Type} (known : List String) (read : String → Option α)
    (place : Value → Value) : Prop :=
  (∀ s t members others, Document (place (.object members)) s →
    Document (place (.object others)) t → Rearranged known members others → read t = read s) ∧
  ∀ s members name, Document (place (.object members)) s → name ∈ known →
    occurrences name members ≠ 1 → read s = none

theorem IsNamed.unique {m n : Member} (hm : IsNamed name m) (hn : IsNamed other n) (h : m.1 = n.1) :
    name = other := by
  rw [isNamed_iff] at hm hn
  rw [h, hn, Option.some.injEq] at hm
  exact String.toList_inj.mp hm.symm

namespace Value

def field? (name : String) (members : List Member) : Option Value :=
  (named? members).bind (member? name)

def AllNamed (members : List Member) : Prop := ∀ m ∈ members, (unescape m.1).isSome

private theorem named?_cons_of_some {inside text : List Char} {v : Value}
    (h : unescape inside = some text) :
    named? ((inside, v) :: members) = (named? members).map ((String.ofList text, v) :: ·) := by
  rw [named?, h]
  cases named? members <;> rfl

private theorem named?_eq_some {entries : List (String × Value)} (name : String)
    (h : named? members = some entries) :
    AllNamed members ∧
      entries.filter (fun e => e.1 == name)
        = (members.filter fun m => decide (IsNamed name m)).map fun m => (name, m.2) := by
  induction members generalizing entries with
  | nil =>
    obtain rfl := Option.some.inj h
    exact ⟨by simp [AllNamed], rfl⟩
  | cons m members ih =>
    obtain ⟨inside, v⟩ := m
    cases htext : unescape inside with
    | none => simp [named?, htext] at h
    | some text =>
      rw [named?_cons_of_some htext] at h
      obtain ⟨entries, hentries, rfl⟩ := Option.map_eq_some_iff.mp h
      obtain ⟨hall, hfilter⟩ := ih hentries
      refine ⟨List.forall_mem_cons.mpr ⟨by simp [htext], hall⟩, ?_⟩
      have hsame : (String.ofList text == name) = decide (IsNamed name (inside, v)) := by
        have hiff : String.ofList text = name ↔ IsNamed name (inside, v) := by
          rw [IsNamed, htext, Option.some.injEq]
          exact ⟨by rintro rfl; simp, fun h => by rw [h, String.ofList_toList]⟩
        rw [Bool.eq_iff_iff]
        simpa using hiff
      rw [List.filter_cons, List.filter_cons, hsame, hfilter]
      split
      · rename_i hnamed
        rw [← hsame, beq_iff_eq] at hnamed
        simp [hnamed]
      · rfl

private theorem exists_named (h : AllNamed members) : ∃ entries, named? members = some entries := by
  induction members with
  | nil => exact ⟨[], rfl⟩
  | cons m members ih =>
    obtain ⟨hm, hmembers⟩ := List.forall_mem_cons.mp h
    obtain ⟨text, htext⟩ := Option.isSome_iff_exists.mp hm
    obtain ⟨entries, hentries⟩ := ih hmembers
    exact ⟨_, by rw [named?_cons_of_some htext, hentries]; rfl⟩

theorem field?_eq_some_iff {v : Value} :
    field? name members = some v ↔ AllNamed members ∧
      ∃ inside, (members.filter fun m => decide (IsNamed name m)) = [(inside, v)] := by
  constructor
  · intro h
    obtain ⟨entries, hnamed, hmember⟩ := Option.bind_eq_some_iff.mp h
    obtain ⟨hall, hfilter⟩ := named?_eq_some name hnamed
    refine ⟨hall, ?_⟩
    unfold member? at hmember
    split at hmember
    · rename_i e hone
      obtain rfl := Option.some.inj hmember
      rw [hfilter, List.map_eq_singleton_iff] at hone
      obtain ⟨m, hm, rfl⟩ := hone
      exact ⟨m.1, hm⟩
    · cases hmember
  · rintro ⟨hall, inside, hone⟩
    obtain ⟨entries, hnamed⟩ := exists_named hall
    obtain ⟨-, hfilter⟩ := named?_eq_some name hnamed
    rw [hone] at hfilter
    rw [field?, hnamed, Option.bind_some, member?, hfilter]
    rfl

theorem field?_eq_none (h : occurrences name members ≠ 1) : field? name members = none := by
  rw [Option.eq_none_iff_forall_not_mem]
  intro v hv
  obtain ⟨-, inside, hone⟩ := field?_eq_some_iff.mp hv
  apply h
  rw [occurrences, List.countP_eq_length_filter, hone]
  rfl

theorem field?_rearranged (h : Rearranged known members others) (hname : name ∈ known) :
    field? name others = field? name members := by
  obtain ⟨added, hadded, hperm⟩ := h
  have hnames : AllNamed others ↔ AllNamed members := by
    constructor
    · exact fun h m hm => h m (hperm.mem_iff.mpr (List.mem_append_left _ hm))
    · intro h m hm
      rcases List.mem_append.mp (hperm.mem_iff.mp hm) with hm | hm
      · exact h m hm
      · obtain ⟨other, -, hother⟩ := hadded m hm
        simp [isNamed_iff.mp hother]
  have hnone : (added.filter fun m => decide (IsNamed name m)) = [] := by
    rw [List.filter_eq_nil_iff]
    intro m hm hnamed
    obtain ⟨other, hunknown, hother⟩ := hadded m hm
    rw [IsNamed.unique (of_decide_eq_true hnamed) hother rfl] at hname
    exact hunknown hname
  have hfilter := hperm.filter fun m => decide (IsNamed name m)
  rw [List.filter_append, hnone, List.append_nil] at hfilter
  apply Option.ext
  intro v
  rw [field?_eq_some_iff, field?_eq_some_iff, hnames]
  refine and_congr_right fun _ => exists_congr fun inside => ⟨fun hone => ?_, fun hone => ?_⟩
  · rw [hone] at hfilter
    exact (List.singleton_perm.mp hfilter).symm
  · rw [hone] at hfilter
    exact List.perm_singleton.mp hfilter

section Replacing

variable {inside : List Char} {v w u : Value}

private theorem allNamed_replace :
    AllNamed (front ++ (inside, v) :: back) ↔ AllNamed (front ++ (inside, w) :: back) := by
  simp [AllNamed, or_imp, forall_and]

variable (hname : IsNamed name (inside, v))
include hname

theorem field?_replace_other (hne : other ≠ name) :
    field? other (front ++ (inside, v) :: back) = field? other (front ++ (inside, w) :: back) := by
  have hother : ∀ u, ¬ IsNamed other (inside, u) := fun u h => hne (IsNamed.unique h hname rfl)
  apply Option.ext
  intro u
  rw [field?_eq_some_iff, field?_eq_some_iff, allNamed_replace (w := w)]
  simp [List.filter_append, hother]

theorem field?_replace (h : field? name (front ++ (inside, v) :: back) = some u) :
    u = v ∧ field? name (front ++ (inside, w) :: back) = some w := by
  obtain ⟨hall, key, hone⟩ := field?_eq_some_iff.mp h
  have hnamed : ∀ u, IsNamed name (inside, u) := fun _ => hname
  simp only [List.filter_append, List.filter_cons, hnamed, decide_true, if_true] at hone
  rcases List.append_eq_singleton_iff.mp hone with ⟨hfront, hrest⟩ | ⟨-, hrest⟩
  · obtain ⟨hm, hback⟩ := List.cons.inj hrest
    cases hm
    refine ⟨rfl, field?_eq_some_iff.mpr ⟨allNamed_replace.mp hall, inside, ?_⟩⟩
    simp [List.filter_append, hnamed, hfront, hback]
  · cases hrest

end Replacing

section Fields

variable {names : List String}

def fields? (names : List String) (members : List Member) : Option (List Value) :=
  names.mapM fun name => field? name members

private theorem fields?_congr (h : ∀ name ∈ names, field? name members = field? name others) :
    fields? names members = fields? names others := by
  induction names with
  | nil => rfl
  | cons name names ih =>
    obtain ⟨hname, hnames⟩ := List.forall_mem_cons.mp h
    have hrest := ih hnames
    simp only [fields?] at hrest ⊢
    rw [List.mapM_cons, List.mapM_cons, hname, hrest]

theorem fields?_rearranged (h : Rearranged names members others) :
    fields? names others = fields? names members :=
  fields?_congr fun _ hname => field?_rearranged h hname

theorem fields?_eq_none (hname : name ∈ names) (h : occurrences name members ≠ 1) :
    fields? names members = none := by
  have hnone := field?_eq_none h
  induction names with
  | nil => cases hname
  | cons first names ih =>
    simp only [fields?] at ih ⊢
    rw [List.mapM_cons]
    rcases List.mem_cons.mp hname with rfl | hname
    · rw [hnone]
      rfl
    · rw [ih hname]
      cases field? first members <;> rfl

theorem fields?_replace {inside : List Char} {v w : Value} {values : List Value}
    (hnamed : IsNamed name (inside, v)) (hne : name ∉ names)
    (h : fields? (name :: names) (front ++ (inside, v) :: back) = some values) :
    ∃ rest, values = v :: rest ∧
      fields? (name :: names) (front ++ (inside, w) :: back) = some (w :: rest) := by
  have hothers : fields? names (front ++ (inside, w) :: back)
      = fields? names (front ++ (inside, v) :: back) :=
    fields?_congr fun other hother =>
      (field?_replace_other hnamed (fun heq => hne (heq ▸ hother))).symm
  simp only [fields?] at h hothers ⊢
  rw [List.mapM_cons] at h ⊢
  simp only [Option.bind_eq_bind, Option.bind_eq_some_iff, Option.pure_def, Option.some.injEq] at h
  obtain ⟨u, hfield, rest, hrest, rfl⟩ := h
  obtain ⟨rfl, hreplaced⟩ := field?_replace (w := w) hnamed hfield
  exact ⟨rest, rfl, by rw [hreplaced, hothers, hrest]; rfl⟩

end Fields

end Value

end BeaconMesh.Json
