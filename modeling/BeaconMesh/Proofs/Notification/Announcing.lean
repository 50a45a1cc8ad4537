import BeaconMesh.Proofs.Notification.Serving
import Mathlib.Data.List.Induction

/-!
What peers have been told of the changes to what a server hands out. A start announces its change
only if something was or is handed out, and what it has published stays although the announcement
fails. A withdrawal that was not announced is therefore not announced by the start that repeats it:
that one finds nothing to withdraw.
-/

set_option autoImplicit false
set_option relaxedAutoImplicit false

namespace BeaconMesh.Notification.Server

open Beacon

/-- An operation that is over, and what was handed out before and after it. -/
structure Change where
  turn : Turn
  before : Published
  after : Published

namespace Change

def isStop (c : Change) : Bool := c.turn.operation.isStop

/-- A start has replaced what was handed out, and not nothing by nothing. -/
def matters (c : Change) : Bool :=
  !c.isStop && c.turn.replaces && (c.before.set.isSome || c.after.set.isSome)

/-- The transport was asked to advertise anew and has done so. -/
def told (c : Change) : Bool :=
  c.turn.calls.contains .refresh && (c.turn.operation.answer .refresh).isOk

/-- A start that leaves it to later ones to announce what it has changed. -/
def owes (c : Change) : Bool := c.matters && !c.told

/-- A start that announces nothing. -/
def silent (c : Change) : Bool := !c.isStop && !c.told

/-- A start that takes back all that was handed out and does not announce it. -/
def unheard (c : Change) : Bool :=
  !c.isStop && c.before.set.isSome && c.after.set.isNone && !c.told

/-- A start where nothing was handed out, and nothing is. -/
def quiet (c : Change) : Bool := !c.isStop && c.before.set.isNone && c.after.set.isNone

end Change

/-- Every start that changed what is handed out was followed by an announcement, unless by a stop;
its own announcement counts. The earliest comes first. -/
def Announced (changes : List Change) : Prop :=
  ∀ earlier c later, changes = earlier ++ c :: later → c.matters = true →
    (∀ d ∈ later, d.isStop = false) → ∃ d ∈ c :: later, d.told = true

/-- There was one of these, and there have been only such ones since. -/
def Since (one others : Change → Bool) (changes : List Change) : Prop :=
  ∃ earlier c later, changes = earlier ++ c :: later ∧ one c = true ∧ ∀ d ∈ later, others d = true

namespace History

theorem server_step (h : History) (o : Operation) : (h.step o).server = (h.server.carryOut o).2 :=
  rfl

def change (h : History) (o : Operation) : Change :=
  let (turn, server) := h.server.carryOut o
  ⟨turn, h.server.published, server.published⟩

def changes (h : History) : List Operation → List Change
  | [] => []
  | o :: operations => h.change o :: (h.step o).changes operations

theorem changes_concat (h : History) (operations : List Operation) (o : Operation) :
    h.changes (operations ++ [o]) = h.changes operations ++ [(h.run operations).change o] := by
  induction operations generalizing h with
  | nil => rfl
  | cons first operations ih =>
    rw [List.cons_append, changes, ih]
    rfl

theorem run_concat (h : History) (operations : List Operation) (o : Operation) :
    h.run (operations ++ [o]) = (h.run operations).step o := by
  rw [run, List.foldl_append]
  rfl

end History

theorem since_concat {one others : Change → Bool} {changes : List Change} {c : Change} :
    Since one others (changes ++ [c]) ↔
      one c = true ∨ others c = true ∧ Since one others changes := by
  constructor
  · rintro ⟨earlier, d, later, hsplit, hone, hothers⟩
    rcases List.eq_nil_or_concat later with rfl | ⟨rest, last, rfl⟩
    · obtain ⟨-, hlast⟩ := List.append_inj' hsplit rfl
      cases hlast
      exact .inl hone
    · rw [List.concat_eq_append, ← List.cons_append, ← List.append_assoc] at hsplit
      obtain ⟨hrest, hlast⟩ := List.append_inj' hsplit rfl
      cases hlast
      refine .inr ⟨hothers c (by simp), earlier, d, rest, hrest, hone, ?_⟩
      intro e he
      exact hothers e (by simp [he])
  · rintro (hone | ⟨hothers, earlier, d, later, rfl, hone, hrest⟩)
    · exact ⟨changes, c, [], rfl, hone, fun _ hd => nomatch hd⟩
    · refine ⟨earlier, d, later ++ [c], by simp, hone, ?_⟩
      intro e he
      rcases List.mem_append.mp he with he | he
      · exact hrest e he
      · exact List.mem_singleton.mp he ▸ hothers

theorem not_announced_iff {changes : List Change} :
    ¬ Announced changes ↔ Since Change.owes Change.silent changes := by
  constructor
  · intro hmissed
    unfold Announced at hmissed
    push Not at hmissed
    obtain ⟨earlier, c, later, hsplit, hmatters, hstarts, huntold⟩ := hmissed
    refine ⟨earlier, c, later, hsplit, ?_, ?_⟩
    · simp [Change.owes, hmatters, huntold c List.mem_cons_self]
    · intro d hd
      simp [Change.silent, hstarts d hd, huntold d (List.mem_cons_of_mem c hd)]
  · rintro ⟨earlier, c, later, hsplit, howes, hsilent⟩ hannounced
    simp only [Change.owes, Bool.and_eq_true, Bool.not_eq_true'] at howes
    simp only [Change.silent, Bool.and_eq_true, Bool.not_eq_true'] at hsilent
    obtain ⟨d, hd, htold⟩ :=
      hannounced earlier c later hsplit howes.1 fun d hd => (hsilent d hd).1
    rcases List.mem_cons.mp hd with rfl | hd
    · exact Bool.noConfusion (howes.2.symm.trans htold)
    · exact Bool.noConfusion ((hsilent d hd).2.symm.trans htold)

/-- What an operation can do to what is handed out: take it away as a stop does, leave it, or
replace it as a start does, which announces it if there is anything to announce. -/
inductive Effect (c : Change) : Prop
  | stopped (hstop : c.isStop = true)
  | kept (hstart : c.isStop = false) (hfailed : c.turn.result.isOk = false)
    (hmatters : c.matters = false) (htold : c.told = false) (hsame : c.after = c.before)
  | replaced (hstart : c.isStop = false)
    (hmatters : c.matters = (c.before.set.isSome || c.after.set.isSome))
    (htold : c.told = (c.matters && (c.turn.operation.answer .refresh).isOk))
    (hresult : c.turn.result.isOk = (!c.matters || (c.turn.operation.answer .refresh).isOk))

theorem effect_change (h : History) (o : Operation) : Effect (h.change o) := by
  have hends := ends_carryOut h.server o
  unfold History.change
  generalize h.server.carryOut o = ended at hends
  cases hends with
  | stopped hstop => exact .stopped hstop
  | refused hstart hoffer =>
    refine .kept hstart rfl ?_ rfl rfl
    simp [Change.matters, Turn.replaces, Turn.succeeded, hstart, Except.isOk, Except.toBool]
  | unserved hstart hserving =>
    refine .kept hstart rfl ?_ rfl rfl
    simp [Change.matters, Turn.replaces, Turn.succeeded, hstart, Except.isOk, Except.toBool]
  | @published hstart next hoffer =>
    have hmatters : (Change.mk ⟨o, h.server.callsFor next, h.server.announcement o next⟩
        h.server.published next).matters
          = (h.server.published.set.isSome || next.set.isSome) := by
      simp [Change.matters, Change.isStop, hstart, replaces_published]
    refine .replaced hstart hmatters ?_ ?_
    · rw [hmatters]
      by_cases hadvertise : (h.server.published.set.isSome || next.set.isSome) = true
      · simp [Change.told, callsFor, hadvertise]
      · simp [Change.told, callsFor, hadvertise]
    · rw [hmatters]
      simp only [announcement]
      cases h.server.published.set.isSome || next.set.isSome with
      | true => cases o.answer .refresh <;> rfl
      | false => rfl

private theorem owing_iff_step {c : Change} (hc : Effect c) {owing withdrawn : Prop}
    (ih : owing ∧ c.before.set.isNone = true ↔ withdrawn) :
    (c.owes = true ∨ c.silent = true ∧ owing) ∧ c.after.set.isNone = true ↔
      c.unheard = true ∨ c.quiet = true ∧ withdrawn := by
  rw [← ih]
  simp only [Change.owes, Change.silent, Change.unheard, Change.quiet]
  cases hc with
  | stopped hstop => simp [hstop, Change.matters]
  | kept hstart hfailed hmatters htold hsame =>
    rw [hstart, hmatters, htold, hsame]
    cases c.before.set <;> simp
  | replaced hstart hmatters htold hresult =>
    rw [hstart, htold, hmatters]
    cases c.before.set <;> cases c.after.set <;> simp +contextual

/-- If nothing is handed out, just then something is left to announce when a start has taken back
all that was handed out, could not announce it, and no operation has handed out anything since. -/
theorem owing_iff_withdrawn (keys : KeyPair) (ttl : Duration) (operations : List Operation) :
    Since Change.owes Change.silent ((History.fresh keys ttl).changes operations) ∧
        ((History.fresh keys ttl).run operations).server.published.set.isNone = true ↔
      Since Change.unheard Change.quiet ((History.fresh keys ttl).changes operations) := by
  induction operations using List.reverseRecOn with
  | nil =>
    constructor
    · rintro ⟨⟨earlier, c, later, hsplit, -⟩, -⟩
      simp [History.changes] at hsplit
    · rintro ⟨earlier, c, later, hsplit, -⟩
      simp [History.changes] at hsplit
  | append_singleton operations o ih =>
    rw [History.changes_concat, History.run_concat, since_concat, since_concat]
    exact owing_iff_step (effect_change _ o) ih

theorem owing_concat_start {changes : List Change} {c : Change} (hc : Effect c)
    (hstart : c.isStop = false) (hok : c.turn.result.isOk = true) :
    Since Change.owes Change.silent (changes ++ [c]) ↔ c.after.set.isNone = true ∧
      Since Change.owes Change.silent changes ∧ c.before.set.isNone = true := by
  rw [since_concat]
  simp only [Change.owes, Change.silent, hstart]
  cases hc with
  | stopped hstop => exact Bool.noConfusion (hstart.symm.trans hstop)
  | kept _ hfailed => exact Bool.noConfusion (hfailed.symm.trans hok)
  | replaced _ hmatters htold hresult =>
    rw [hok, hmatters] at hresult
    rw [htold, hmatters]
    revert hresult
    cases c.before.set <;> cases c.after.set <;> simp +contextual

/-- After any operations, whatever the transport refused, a start that returns with success leaves
no change to announce, with one exception: nothing is handed out, and what was has been taken back
by a start that could not announce it, with nothing handed out and no stop since. -/
theorem announced_iff (keys : KeyPair) (ttl : Duration) (operations : List Operation)
    (o : Operation) (hstart : o.isStop = false)
    (hok : (((History.fresh keys ttl).run operations).server.carryOut o).1.result.isOk = true) :
    let h := (History.fresh keys ttl).run operations
    Announced ((History.fresh keys ttl).changes (operations ++ [o])) ↔
      ¬ ((h.step o).server.published = .nothing ∧
        Since Change.unheard Change.quiet ((History.fresh keys ttl).changes operations)) := by
  intro h
  have hnothing : (h.change o).after.set.isNone = true ↔
      (h.step o).server.published = .nothing := by
    show (h.step o).server.published.set.isNone = true ↔ _
    rcases (h.step o).server.published with ⟨_ | set⟩
    · simp [Published.nothing]
    · simp [Published.nothing]
  rw [← not_iff_not, not_not, not_announced_iff, History.changes_concat,
    owing_concat_start (effect_change h o) hstart hok, hnothing]
  exact and_congr_right fun _ => owing_iff_withdrawn keys ttl operations

def withdrawal (answer : TransportCall → Except String Unit) : Operation :=
  ⟨.start [], ⟨0⟩, counting, answer⟩

theorem carryOut_withdrawal {s : Server} (hserving : s.serving = true)
    (answer : TransportCall → Except String Unit) :
    s.carryOut (withdrawal answer) = (⟨withdrawal answer, s.callsFor .nothing,
      s.announcement (withdrawal answer) .nothing⟩,
      { s with published := .nothing, phase := .running, serving := true }) :=
  carryOut_published rfl rfl (.inl hserving)

/-- A server that could not announce that it takes its beacons back is asked once more to take them
back: it makes no call and answers that all is well, though nothing was announced. -/
theorem announced_iff_withdrawal :
    let fresh := History.fresh (repeating 1) (.ofSecs 60)
    let operations := [startFor fun _ => .ok (), withdrawal refusingRefresh]
    let again := withdrawal fun _ => .ok ()
    let h := fresh.run operations
    again.isStop = false ∧ (h.server.carryOut again).1 = ⟨again, [], .ok ()⟩ ∧
    (h.step again).server.published = .nothing ∧
    Since Change.unheard Change.quiet (fresh.changes operations) ∧
    ¬ Announced (fresh.changes (operations ++ [again])) := by
  obtain ⟨set, hmade⟩ := generate_askedTwice
  revert hmade
  generalize repeating 1 = keys
  intro hmade fresh operations again h
  have hfirst : (fresh.step (startFor fun _ => .ok ())).server
      = ⟨keys, .ofSecs 60, ⟨some set⟩, .running, true⟩ :=
    congrArg History.server (run_startFor hmade (fun _ => .ok ()) rfl)
  have hsecond : h.server = ⟨keys, .ofSecs 60, .nothing, .running, true⟩ := by
    show ((fresh.step _).step (withdrawal refusingRefresh)).server = _
    rw [History.server_step, hfirst, carryOut_withdrawal rfl]
  have hthird : h.server.carryOut again
      = (⟨again, [], .ok ()⟩, ⟨keys, .ofSecs 60, .nothing, .running, true⟩) := by
    rw [hsecond, carryOut_withdrawal rfl]
    rfl
  have hpublished : (h.step again).server.published = .nothing := by
    rw [History.server_step, hthird]
  have hunheard : Since Change.unheard Change.quiet (fresh.changes operations) := by
    refine ⟨[fresh.change (startFor fun _ => .ok ())],
      (fresh.step (startFor fun _ => .ok ())).change (withdrawal refusingRefresh), [], rfl, ?_, ?_⟩
    · rw [History.change, hfirst, carryOut_withdrawal rfl]
      rfl
    · intro d hd
      cases hd
  have hok : (h.server.carryOut again).1.result.isOk = true := by
    rw [hthird]
    rfl
  refine ⟨rfl, congrArg Prod.fst hthird, hpublished, hunheard, ?_⟩
  exact fun hannounced =>
    (announced_iff keys (.ofSecs 60) operations again rfl hok).mp hannounced ⟨hpublished, hunheard⟩

end BeaconMesh.Notification.Server
