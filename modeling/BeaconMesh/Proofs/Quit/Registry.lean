import BeaconMesh.Proofs.Quit.Raising
import Mathlib.Data.List.Nodup

/-!
A signal and its timers agree, as long as somebody could raise it: the signal has the numbers of the
timers that were registered and not given up. A timer holds its line to the signal until the signal
was raised or nobody is left who could raise it.
-/

set_option autoImplicit false
set_option relaxedAutoImplicit false

namespace BeaconMesh.Quit

open QuitSignal (Timer Line Polled)

def Moment.about : Moment → Option Nat
  | .registered timer _ _ => some timer
  | .polled timer _ => some timer
  | .givenUp timer => some timer
  | _ => none

/-- Whether there is one timer more or less than before. -/
def Moment.counted : Moment → Bool
  | .registered _ _ _ => true
  | .givenUp _ => true
  | _ => false

/-- What is on record of the timers that are left; the next one has this number. -/
structure Kept (next : Nat) (timers : List Timer) (now : Nat) (moments : List Moment) : Prop where
  known : ∀ m ∈ moments, ∀ n, m.about = some n → n < next
  registered : ∀ n < next, ∃ after time, .registered n after time ∈ moments
  once : ∀ n after time earlier, .registered n after time :: earlier <:+ moments →
    ∀ after' time', .registered n after' time' ∉ earlier
  distinct : (timers.map Timer.number).Nodup
  live : ∀ n, n ∈ timers.map Timer.number ↔ n < next ∧ .givenUp n ∉ moments
  due : ∀ t ∈ timers, ∀ after time, .registered t.number after time ∈ moments →
    time ≤ now ∧ t.deadline = time + History.ticks after

/-- What is on record of the lines of these timers, which have been let go or not. -/
structure Lines (timers : List Timer) (lapsed : Bool) (moments : List Moment) : Prop where
  heard : ∀ t ∈ timers, t.line = .heard ↔ .polled t.number (.ended .cancelled) ∈ moments
  held : ∀ t ∈ timers, t.line = .held ↔ lapsed = false

section Record

variable {next now : Nat} {timers : List Timer} {moments : List Moment}

theorem Kept.nil : Kept 0 [] 0 [] where
  known := by simp
  registered := by simp
  once := fun _ _ _ _ hsuffix => nomatch List.suffix_nil.mp hsuffix
  distinct := List.nodup_nil
  live := by simp
  due := by simp

theorem Kept.quiet (hk : Kept next timers now moments) {m : Moment}
    (hknown : ∀ n, m.about = some n → n < next) (hcounted : m.counted = false) :
    Kept next timers now (m :: moments) := by
  have hother : ∀ m' : Moment, m'.counted = true → m' ≠ m := by
    rintro m' hm' rfl
    exact Bool.noConfusion (hcounted.symm.trans hm')
  have hgiven : ∀ n, Moment.givenUp n ≠ m := fun n => hother _ rfl
  have hregistered : ∀ n after time, Moment.registered n after time ≠ m :=
    fun n after time => hother _ rfl
  exact
    { hk with
      known := by
        intro m' hmem n hn
        rcases List.mem_cons.mp hmem with rfl | hmem
        · exact hknown n hn
        · exact hk.known m' hmem n hn
      registered := by simpa [hregistered] using hk.registered
      once := by
        intro n after time earlier hsuffix
        rcases List.suffix_cons_iff.mp hsuffix with heq | hsuffix
        · exact absurd (List.cons.inj heq).1 (hregistered n after time)
        · exact hk.once n after time earlier hsuffix
      live := by simpa [hgiven] using hk.live
      due := by simpa [hregistered] using hk.due }

theorem Kept.register (hk : Kept next timers now moments) (after : Duration) :
    Kept (next + 1) (timers ++ [⟨next, now + History.ticks after, .held⟩]) now
      (.registered next after now :: moments) := by
  have hunknown : ∀ m : Moment, m.about = some next → m ∉ moments :=
    fun m hm hmem => Nat.lt_irrefl _ (hk.known m hmem next hm)
  have hnew : next ∉ timers.map Timer.number :=
    fun hmem => Nat.lt_irrefl _ ((hk.live next).mp hmem).1
  constructor
  case known =>
    intro m hmem n hn
    rcases List.mem_cons.mp hmem with rfl | hmem
    · obtain rfl : next = n := by simpa [Moment.about] using hn
      exact Nat.lt_succ_self _
    · exact Nat.lt_succ_of_lt (hk.known m hmem n hn)
  case registered =>
    intro n hn
    rcases Nat.lt_succ_iff_lt_or_eq.mp hn with hn | rfl
    · obtain ⟨after', time', hmem⟩ := hk.registered n hn
      exact ⟨after', time', List.mem_cons_of_mem _ hmem⟩
    · exact ⟨after, now, List.mem_cons_self⟩
  case once =>
    intro n after' time' earlier hsuffix
    rcases List.suffix_cons_iff.mp hsuffix with heq | hsuffix
    · cases heq
      exact fun _ _ => hunknown _ rfl
    · exact hk.once n after' time' earlier hsuffix
  case distinct =>
    rw [List.map_append, List.map_singleton]
    exact hk.distinct.append (List.nodup_singleton _) (by simpa using hnew)
  case live =>
    intro n
    have hgiven := hunknown (.givenUp next) rfl
    rw [List.map_append, List.map_singleton, List.mem_append, List.mem_singleton, hk.live]
    simp only [List.mem_cons, reduceCtorEq, false_or]
    constructor
    · rintro (⟨hlt, hn⟩ | rfl)
      · exact ⟨Nat.lt_succ_of_lt hlt, hn⟩
      · exact ⟨Nat.lt_succ_self _, hgiven⟩
    · rintro ⟨hlt, hn⟩
      rcases Nat.lt_succ_iff_lt_or_eq.mp hlt with hlt | rfl
      · exact .inl ⟨hlt, hn⟩
      · exact .inr rfl
  case due =>
    intro t ht after' time' hmem
    rcases List.mem_append.mp ht with ht | ht <;> rcases List.mem_cons.mp hmem with heq | hmem
    · have hsame : t.number = next := (Moment.registered.inj heq).1
      exact absurd (hsame ▸ List.mem_map_of_mem ht) hnew
    · exact hk.due t ht after' time' hmem
    · obtain rfl := List.mem_singleton.mp ht
      cases heq
      exact ⟨Nat.le_refl _, rfl⟩
    · obtain rfl := List.mem_singleton.mp ht
      exact absurd hmem (hunknown _ rfl)

theorem Kept.giveUp (hk : Kept next timers now moments) {n : Nat} (hn : n < next) :
    Kept next (timers.filter fun t => t.number != n) now (.givenUp n :: moments) where
  known := by
    intro m hmem n' hn'
    rcases List.mem_cons.mp hmem with rfl | hmem
    · obtain rfl : n = n' := by simpa [Moment.about] using hn'
      exact hn
    · exact hk.known m hmem n' hn'
  registered := by simpa using hk.registered
  once := by
    intro n' after time earlier hsuffix
    rcases List.suffix_cons_iff.mp hsuffix with heq | hsuffix
    · cases heq
    · exact hk.once n' after time earlier hsuffix
  distinct := hk.distinct.sublist (List.filter_sublist.map _)
  live := by
    intro n'
    have hlive := hk.live n'
    simp only [List.mem_map, List.mem_filter, bne_iff_ne, ne_eq, List.mem_cons,
      Moment.givenUp.injEq, not_or] at hlive ⊢
    constructor
    · rintro ⟨t, ⟨ht, hne⟩, rfl⟩
      obtain ⟨hlt, hgiven⟩ := hlive.mp ⟨t, ht, rfl⟩
      exact ⟨hlt, hne, hgiven⟩
    · rintro ⟨hlt, hne, hgiven⟩
      obtain ⟨t, ht, rfl⟩ := hlive.mpr ⟨hlt, hgiven⟩
      exact ⟨t, ⟨ht, hne⟩, rfl⟩
  due := by
    intro t ht
    simpa using hk.due t (List.mem_of_mem_filter ht)

theorem Kept.advance (hk : Kept next timers now moments) (ms : Nat) :
    Kept next timers (now + ms) moments :=
  { hk with
    due := fun t ht after time hmem => by
      obtain ⟨hle, hdeadline⟩ := hk.due t ht after time hmem
      exact ⟨Nat.le_add_right_of_le hle, hdeadline⟩ }

theorem Kept.map (hk : Kept next timers now moments) {f : Timer → Timer}
    (hnumber : ∀ t, (f t).number = t.number) (hdeadline : ∀ t, (f t).deadline = t.deadline) :
    Kept next (timers.map f) now moments := by
  have hnumbers : (timers.map f).map Timer.number = timers.map Timer.number := by
    rw [List.map_map]
    exact List.map_congr_left fun t _ => hnumber t
  refine { hk with distinct := hnumbers ▸ hk.distinct, live := hnumbers ▸ hk.live, due := ?_ }
  intro t' ht'
  obtain ⟨t, ht, rfl⟩ := List.mem_map.mp ht'
  rw [hnumber, hdeadline]
  exact hk.due t ht

theorem Kept.lt_next (hk : Kept next timers now moments) {t : Timer} (ht : t ∈ timers) :
    t.number < next :=
  ((hk.live t.number).mp (List.mem_map_of_mem ht)).1

theorem Kept.eq_of_number (hk : Kept next timers now moments) {t t' : Timer} (ht : t ∈ timers)
    (ht' : t' ∈ timers) (hnumber : t.number = t'.number) : t = t' :=
  List.inj_on_of_nodup_map hk.distinct ht ht' hnumber

variable {lapsed : Bool}

theorem Lines.nil : Lines [] false [] where
  heard := by simp
  held := by simp

theorem Lines.quiet (hl : Lines timers lapsed moments) {m : Moment}
    (hm : ∀ n said, m ≠ .polled n said) : Lines timers lapsed (m :: moments) where
  heard := by simpa [fun n said => (hm n said).symm] using hl.heard
  held := hl.held

theorem Lines.subset (hl : Lines timers lapsed moments) {timers' : List Timer}
    (hsubset : timers' ⊆ timers) : Lines timers' lapsed moments where
  heard := fun t ht => hl.heard t (hsubset ht)
  held := fun t ht => hl.held t (hsubset ht)

theorem Lines.register (hl : Lines timers false moments) {number : Nat}
    (hnew : ∀ said, .polled number said ∉ moments) (deadline : Nat) :
    Lines (timers ++ [⟨number, deadline, .held⟩]) false moments where
  heard := by
    intro t ht
    rcases List.mem_append.mp ht with ht | ht
    · exact hl.heard t ht
    · obtain rfl := List.mem_singleton.mp ht
      simpa using hnew (.ended .cancelled)
  held := by
    intro t ht
    rcases List.mem_append.mp ht with ht | ht
    · exact hl.held t ht
    · obtain rfl := List.mem_singleton.mp ht
      simp

theorem Lines.lapse (hl : Lines timers false moments) {numbers : List Nat} {line : Line}
    (hnumbers : ∀ t ∈ timers, t.number ∈ numbers) (hheld : line ≠ .held)
    (hheard : line ≠ .heard) :
    Lines (timers.map fun t => if numbers.contains t.number then { t with line := line } else t)
      true moments := by
  have hmap : (timers.map fun t =>
      if numbers.contains t.number then { t with line := line } else t)
        = timers.map fun t => { t with line := line } :=
    List.map_congr_left fun t ht => if_pos (by simpa using hnumbers t ht)
  rw [hmap]
  constructor
  case heard =>
    intro t' ht'
    obtain ⟨t, ht, rfl⟩ := List.mem_map.mp ht'
    have hunheard : t.line ≠ .heard := by
      rw [(hl.held t ht).mpr rfl]
      exact fun h => nomatch h
    exact iff_of_false hheard (mt (hl.heard t ht).mpr hunheard)
  case held =>
    intro t' ht'
    obtain ⟨t, ht, rfl⟩ := List.mem_map.mp ht'
    simpa using hheld

end Record

@[simp] theorem polled_number (t : Timer) : t.polled.number = t.number := by
  unfold Timer.polled
  split <;> rfl

@[simp] theorem polled_deadline (t : Timer) : t.polled.deadline = t.deadline := by
  unfold Timer.polled
  split <;> rfl

theorem polled_line_held (t : Timer) : t.polled.line = .held ↔ t.line = .held := by
  obtain ⟨number, deadline, line⟩ := t
  cases line <;> simp [Timer.polled]

theorem polled_line_heard (t : Timer) (now : Nat) :
    t.polled.line = .heard ↔ t.poll now = .ended .cancelled ∨ t.line = .heard := by
  obtain ⟨number, deadline, line⟩ := t
  cases line <;> simp [Timer.polled, Timer.poll]
  split <;> simp

theorem Lines.poll {next now : Nat} {timers : List Timer} {lapsed : Bool} {moments : List Moment}
    (hl : Lines timers lapsed moments) (hk : Kept next timers now moments) {t : Timer}
    (ht : t ∈ timers) (time : Nat) :
    Lines (timers.map fun t' => if t'.number == t.number then t'.polled else t') lapsed
      (.polled t.number (t.poll time) :: moments) := by
  constructor
  case heard =>
    intro t'' ht''
    obtain ⟨t', ht', rfl⟩ := List.mem_map.mp ht''
    by_cases hsame : t'.number = t.number
    · obtain rfl := hk.eq_of_number ht' ht hsame
      simp only [beq_self_eq_true, if_true, polled_number, polled_line_heard t' time,
        hl.heard t' ht, List.mem_cons, Moment.polled.injEq, true_and, eq_comm]
    · have hne : (t'.number == t.number) = false := by simpa using hsame
      simp [hne, hsame, hl.heard t' ht']
  case held =>
    intro t'' ht''
    obtain ⟨t', ht', rfl⟩ := List.mem_map.mp ht''
    rw [← hl.held t' ht']
    split
    · exact polled_line_held t'
    · rfl

theorem eq_tell_of_tells {task : Task} (htells : task.tells = true) :
    ∃ numbers, task = .tell numbers := by
  cases task <;> first | exact ⟨_, rfl⟩ | cases htells

theorem tell_not_mem {tasks : List Task} (hquiet : tasks.any Task.tells = false)
    (numbers : List Nat) : .tell numbers ∉ tasks :=
  fun hmem => Bool.noConfusion (hquiet.symm.trans (List.any_eq_true.mpr ⟨_, hmem, rfl⟩))

theorem Ahead.told {deeds : List Deed} {began ended : Nat} {path : List (Request Deed × Bool)}
    {returned : Bool} {tasks : List Task} (ha : Ahead deeds began ended path returned tasks)
    (hbegan : 0 < began) : tasks.any Task.tells = false := by
  induction ha with
  | tell _ _ _ => exact absurd hbegan (Nat.lt_irrefl 0)
  | begin _ _ _ ih => simpa [Task.tells] using ih (Nat.succ_pos _)
  | go _ _ _ ih => simpa [Task.tells] using ih (Nat.succ_pos _)
  | announce => rfl
  | finish => rfl
  | returned => rfl

theorem Ahead.unreturned {deeds : List Deed} {began ended : Nat}
    {path : List (Request Deed × Bool)} {returned : Bool} {tasks : List Task}
    (ha : Ahead deeds began ended path returned tasks) (htells : tasks.any Task.tells = true) :
    returned = false := by
  cases ha with
  | tell _ _ => rfl
  | begin _ _ _ => rfl
  | go _ _ _ => rfl
  | announce => rfl
  | finish => rfl
  | returned => simp at htells

theorem Ahead.rest {deeds : List Deed} {began ended : Nat} {path : List (Request Deed × Bool)}
    {returned : Bool} {task : Task} {tasks : List Task}
    (ha : Ahead deeds began ended path returned (task :: tasks)) :
    tasks.any Task.tells = false := by
  cases ha with
  | tell once _ => exact once
  | begin _ _ later => exact later.told (Nat.succ_pos _)
  | go _ _ later => exact later.told (Nat.succ_pos _)
  | announce => rfl
  | finish => rfl

namespace History

/-- Whether the timers have been let go: they were told that the signal was raised, or nobody is
left who could raise it. -/
def lapsed (h : History) : Bool := (h.signal.raised && !h.telling) || !h.reachable

/-- The signal and its timers agree. -/
structure Agreed (h : History) : Prop where
  kept : Kept h.signal.nextTimer h.timers h.now h.moments
  lines : Lines h.timers h.lapsed h.moments
  entries : h.signal.raised = false → h.reachable = true →
    h.signal.timers = h.timers.map Timer.number
  dismissed : h.signal.raised = true ∨ h.reachable = false → h.signal.timers = []
  told : ∀ tasks ∈ h.calls, ∀ numbers, .tell numbers ∈ tasks → ∀ t ∈ h.timers, t.number ∈ numbers
  used : h.telling = true → 0 < h.handles

variable {h h' : History}

theorem agreed_fresh : fresh.Agreed where
  kept := .nil
  lines := .nil
  entries := fun _ _ => rfl
  dismissed := fun _ => rfl
  told := by simp [fresh]
  used := by simp [fresh, telling]

/-- The timers are told by the call that has raised the signal, before it returns. -/
theorem Settled.of_telling (hs : h.Settled) (htelling : h.telling = true) :
    h.signal.raised = true ∧ ¬ Returned h.moments := by
  rcases hs with ⟨_, hu⟩ | ⟨_, _, _, _, _, tasks, hr⟩
  · simp [telling, hu.calls] at htelling
  · have htells : tasks.any Task.tells = true := by simpa [telling, hr.calls] using htelling
    refine ⟨hr.flag, fun hreturned => ?_⟩
    exact Bool.noConfusion
      ((hr.ahead.unreturned htells).symm.trans (hr.recorded.returned.mp hreturned))

theorem reachable_of_handles_ne (hhandles : h.handles ≠ 0) : h.reachable = true :=
  reachable_of_handles (Nat.pos_of_ne_zero hhandles)

theorem busy_of_telling (htelling : h.telling = true) : h.busy = true := by
  obtain ⟨tasks, htasks, htells⟩ := List.any_eq_true.mp htelling
  have hne : tasks ≠ [] := by
    rintro rfl
    exact Bool.noConfusion htells
  have hany : (h.calls.any fun tasks => !tasks.isEmpty) = true :=
    List.any_eq_true.mpr ⟨tasks, htasks, by simpa using hne⟩
  simp [busy, hany]

theorem Agreed.transfer (ha : h.Agreed) (hraised : h'.signal.raised = h.signal.raised)
    (hnext : h'.signal.nextTimer = h.signal.nextTimer)
    (hentries : h'.signal.timers = h.signal.timers) (htimers : h'.timers = h.timers)
    (hnow : h'.now = h.now) (hreachable : h'.reachable = h.reachable)
    (htelling : h'.telling = h.telling)
    (htold : ∀ tasks ∈ h'.calls, ∀ numbers, .tell numbers ∈ tasks →
      ∃ tasks ∈ h.calls, .tell numbers ∈ tasks)
    (hhandles : h.telling = true → 0 < h'.handles)
    (hmoments : ∃ new, h'.moments = new ++ h.moments ∧ ∀ m ∈ new, m.about = none) :
    h'.Agreed := by
  obtain ⟨new, hmoments, hnew⟩ := hmoments
  have hlapsed : h'.lapsed = h.lapsed := by rw [lapsed, lapsed, hraised, htelling, hreachable]
  have hrecord : Kept h.signal.nextTimer h.timers h.now (new ++ h.moments) ∧
      Lines h.timers h.lapsed (new ++ h.moments) := by
    clear hmoments
    induction new with
    | nil => exact ⟨ha.kept, ha.lines⟩
    | cons m new ih =>
      obtain ⟨hkept, hlines⟩ := ih fun m' hmem => hnew m' (List.mem_cons_of_mem _ hmem)
      have hm := hnew m List.mem_cons_self
      refine ⟨hkept.quiet (by simp [hm]) ?_, hlines.quiet ?_⟩
      · cases m <;> first | rfl | cases hm
      · rintro n said rfl
        cases hm
  constructor
  case kept => rw [hnext, htimers, hnow, hmoments]; exact hrecord.1
  case lines => rw [htimers, hlapsed, hmoments]; exact hrecord.2
  case entries => rw [hraised, hreachable, hentries, htimers]; exact ha.entries
  case dismissed => rw [hraised, hreachable, hentries]; exact ha.dismissed
  case told =>
    intro tasks htasks numbers hmem
    obtain ⟨before, hbefore, htell⟩ := htold tasks htasks numbers hmem
    rw [htimers]
    exact ha.told before hbefore numbers htell
  case used => rw [htelling]; exact hhandles

theorem Agreed.keep (ha : h.Agreed) (hraised : h'.signal.raised = h.signal.raised)
    (hnext : h'.signal.nextTimer = h.signal.nextTimer)
    (hentries : h'.signal.timers = h.signal.timers) (htimers : h'.timers = h.timers)
    (hnow : h'.now = h.now) (hcalls : h'.calls = h.calls) (hreachable : h'.reachable = h.reachable)
    (hhandles : h.telling = true → 0 < h'.handles) (new : List Moment)
    (hmoments : h'.moments = new ++ h.moments) (hnew : ∀ m ∈ new, m.about = none) : h'.Agreed := by
  refine ha.transfer hraised hnext hentries htimers hnow hreachable ?_ ?_ hhandles
    ⟨new, hmoments, hnew⟩
  · rw [telling, telling, hcalls]
  · rw [hcalls]
    exact fun tasks htasks _ hmem => ⟨tasks, htasks, hmem⟩

theorem Agreed.note (ha : h.Agreed) {m : Moment} (hm : m.about = none) : (h.note m).Agreed :=
  ha.keep rfl rfl rfl rfl rfl rfl rfl ha.used [m] rfl (by simpa using hm)

theorem Agreed.raise (ha : h.Agreed) (hhandles : h.handles ≠ 0)
    (hflag : h.signal.raised = false) (hcalls : h.calls = []) :
    (h.step (.request .raise)).Agreed := by
  have hreachable := reachable_of_handles_ne hhandles
  have hentries := ha.entries hflag hreachable
  have hlapsed : h.lapsed = false := by simp [lapsed, hflag, hreachable]
  rw [step_raise hhandles hflag hcalls]
  constructor
  case kept => exact ha.kept.quiet (by simp [Moment.about]) rfl
  case lines =>
    -- Nobody has told the timers yet.
    have hsame : lapsed { h with
        signal := { h.signal with raised := true, timers := [], callbacks := [] }
        calls := [.tell h.signal.timers :: (h.signal.callbacks.map .begin ++ closing)]
        moments := .raised :: h.moments } = h.lapsed := by
      rw [hlapsed]
      simp [lapsed, telling, Task.tells, reachable, Nat.pos_of_ne_zero hhandles]
    rw [hsame]
    exact ha.lines.quiet (by simp)
  case entries => exact fun hfalse => Bool.noConfusion hfalse
  case dismissed => exact fun _ => rfl
  case told =>
    intro tasks htasks numbers hmem t ht
    obtain rfl := List.mem_singleton.mp htasks
    have htell : numbers = h.signal.timers := by
      simpa [closing] using hmem
    rw [htell, hentries]
    exact List.mem_map_of_mem ht
  case used => exact fun _ => Nat.pos_of_ne_zero hhandles

theorem Agreed.timeout (ha : h.Agreed) (hhandles : h.handles ≠ 0)
    (hflag : h.signal.raised = false) (hcalls : h.calls = []) (after : Duration) :
    (h.step (.request (.timeout after))).Agreed := by
  have hreachable := reachable_of_handles_ne hhandles
  have hentries := ha.entries hflag hreachable
  have hlapsed : h.lapsed = false := by simp [lapsed, hflag, hreachable]
  rw [step_timeout hhandles hflag]
  constructor
  case kept => exact (ha.kept.register after).quiet (by simp [Moment.about]) rfl
  case lines =>
    have hnew : ∀ said, .polled h.signal.nextTimer said ∉ h.moments :=
      fun said hmem => Nat.lt_irrefl _ (ha.kept.known _ hmem _ rfl)
    have hlines : Lines h.timers false h.moments := hlapsed ▸ ha.lines
    have hsame : lapsed { h with
        signal := { h.signal with
          nextTimer := h.signal.nextTimer + 1
          timers := h.signal.timers ++ [h.signal.nextTimer] }
        timers := h.timers ++ [⟨h.signal.nextTimer, h.now + ticks after, .held⟩]
        moments := .answered none (.timeout after) true
          :: .registered h.signal.nextTimer after h.now :: h.moments } = false := hlapsed
    rw [hsame]
    exact ((hlines.register hnew _).quiet (by simp)).quiet (by simp)
  case entries =>
    intro _ _
    rw [List.map_append, List.map_singleton, ← hentries]
  case dismissed =>
    rintro (hraised | hunreachable)
    · exact Bool.noConfusion (hflag.symm.trans hraised)
    · exact Bool.noConfusion (hreachable.symm.trans hunreachable)
  case told => simp [hcalls]
  case used => exact ha.used

theorem Agreed.request (ha : h.Agreed) (hs : h.Settled) (r : Request Deed) :
    (h.step (.request r)).Agreed := by
  by_cases hhandles : h.handles = 0
  · have hsame : h.step (.request r) = h := if_pos hhandles
    exact hsame.symm ▸ ha
  · rcases hs with ⟨_, hu⟩ | ⟨_, _, _, _, _, _, hr⟩
    · cases r with
      | raise => exact ha.raise hhandles hu.flag hu.calls
      | ask =>
        rw [step_ask hhandles hu.flag]
        exact ha.note rfl
      | onRaise holds deed =>
        rw [step_onRaise hhandles hu.flag]
        refine ha.keep rfl rfl rfl rfl rfl rfl ?_ ha.used [_, _] rfl (by simp [Moment.about])
        rw [reachable_of_handles_ne hhandles]
        exact reachable_of_handles_ne hhandles
      | timeout after => exact ha.timeout hhandles hu.flag hu.calls after
    · rw [step_request_of_raised hhandles hr.flag]
      exact ha.note rfl

theorem perform_of_raised (hraised : h.signal.raised = true) {task : Task}
    (htells : task.tells = false) :
    ∃ first announced new,
      h.perform task = (first, { h with announced := announced, moments := new ++ h.moments }) ∧
      first.any Task.tells = false ∧ ∀ m ∈ new, m.about = none := by
  cases task with
  | tell numbers => cases htells
  | begin callback =>
    exact ⟨_, h.announced, [_], rfl, by simp [Task.tells], by simp [Moment.about]⟩
  | go callback deed =>
    cases deed with
    | rest => exact ⟨_, h.announced, [_], rfl, by simp, by simp [Moment.about]⟩
    | request r next =>
      refine ⟨[.go callback (next r.asks)], h.announced, [.answered (some callback) r r.asks], ?_,
        by simp [Task.tells], by simp [Moment.about]⟩
      simp [perform, serve_of_raised hraised, History.note]
  | announce => exact ⟨_, true, [], rfl, by simp, by simp⟩
  | finish caller => exact ⟨_, h.announced, [_], rfl, by simp, by simp [Moment.about]⟩

theorem Agreed.tell (ha : h.Agreed) (hraised : h.signal.raised = true) {numbers : List Nat}
    {rest : List Task} (hcalls : h.calls = [.tell numbers :: rest])
    (hrest : rest.any Task.tells = false) :
    ({ h.withLine numbers .told with calls := [rest] } : History).Agreed := by
  have htelling : h.telling = true := by simp [telling, hcalls, Task.tells]
  have hreachable := reachable_of_handles (ha.used htelling)
  have hlapsed : h.lapsed = false := by simp [lapsed, htelling, hreachable]
  have htold : ∀ t ∈ h.timers, t.number ∈ numbers :=
    ha.told (.tell numbers :: rest) (by simp [hcalls]) numbers List.mem_cons_self
  have hafter : telling { h.withLine numbers .told with calls := [rest] } = false := by
    simpa [telling] using hrest
  constructor
  case kept =>
    refine ha.kept.map ?_ ?_ <;> intro t <;> split <;> rfl
  case lines =>
    have hlines : Lines h.timers false h.moments := hlapsed ▸ ha.lines
    have hlet : lapsed { h.withLine numbers .told with calls := [rest] } = true := by
      rw [lapsed, hafter]
      simp [withLine, hraised]
    rw [hlet]
    exact hlines.lapse htold (by simp) (by simp)
  case entries => exact fun hfalse => Bool.noConfusion (hraised.symm.trans hfalse)
  case dismissed => exact fun _ => ha.dismissed (.inl hraised)
  case told =>
    intro tasks htasks numbers' hmem
    obtain rfl := List.mem_singleton.mp htasks
    exact absurd hmem (tell_not_mem hrest numbers')
  case used => exact fun htrue => Bool.noConfusion (hafter.symm.trans htrue)

theorem Agreed.goOn (ha : h.Agreed) {deeds : List Deed} {began ended : Nat}
    {path : List (Request Deed × Bool)} {returned : Bool} {task : Task} {rest : List Task}
    (hr : h.Raised deeds began ended path returned (task :: rest)) :
    (h.step (.proceed 0)).Agreed := by
  have hrest := hr.ahead.rest
  have hstep : h.step (.proceed 0) = { (h.perform task).2 with
      calls := (h.perform task).2.calls.set 0 ((h.perform task).1 ++ rest) } := by
    simp [step, hr.calls]
  rw [hstep]
  cases htells : task.tells with
  | true =>
    obtain ⟨numbers, rfl⟩ := eq_tell_of_tells htells
    have hafter : (h.withLine numbers .told).calls.set 0 ([] ++ rest) = [rest] := by
      simp [withLine, hr.calls]
    simp only [perform, hafter]
    exact ha.tell hr.flag hr.calls hrest
  | false =>
    obtain ⟨first, announced, new, hperform, hfirst, hnew⟩ := perform_of_raised hr.flag htells
    have htelling : h.telling = false := by simp [telling, hr.calls, htells, hrest]
    have hquiet : (first ++ rest).any Task.tells = false := by simp [hfirst, hrest]
    rw [hperform]
    simp only [hr.calls, List.set_cons_zero]
    refine ha.transfer rfl rfl rfl rfl rfl rfl ?_ ?_ ?_ ⟨new, rfl, hnew⟩
    · rw [htelling]
      simpa [telling] using hquiet
    · intro tasks htasks numbers hmem
      obtain rfl := List.mem_singleton.mp htasks
      exact absurd hmem (tell_not_mem hquiet numbers)
    · exact fun htrue => Bool.noConfusion (htelling.symm.trans htrue)

theorem Agreed.proceed (ha : h.Agreed) (hs : h.Settled) (call : Nat) :
    (h.step (.proceed call)).Agreed := by
  rcases hs with ⟨_, hu⟩ | ⟨_, _, _, _, _, tasks, hr⟩
  · have hsame : h.step (.proceed call) = h := by simp [step, hu.calls]
    exact hsame.symm ▸ ha
  · cases call with
    | succ call =>
      have hsame : h.step (.proceed (call + 1)) = h := by simp [step, hr.calls]
      exact hsame.symm ▸ ha
    | zero =>
      cases tasks with
      | nil =>
        have hsame : h.step (.proceed 0) = h := by simp [step, hr.calls]
        exact hsame.symm ▸ ha
      | cons task rest => exact ha.goOn hr

theorem Agreed.abandon (ha : h.Agreed) (hreachable : h.reachable = true)
    (htelling : h.telling = false) :
    ({ h.withLine h.signal.timers .cut with
      handles := 0
      signal := { h.signal with timers := [], callbacks := [] } } : History).Agreed where
  kept := by refine ha.kept.map ?_ ?_ <;> intro t <;> split <;> rfl
  lines := by
    have hlet : lapsed { h.withLine h.signal.timers .cut with
        handles := 0
        signal := { h.signal with timers := [], callbacks := [] } } = true := by
      simp [lapsed, reachable]
    have hlapsed : h.lapsed = h.signal.raised := by simp [lapsed, htelling, hreachable]
    rw [hlet]
    cases hraised : h.signal.raised with
    | false =>
      have hlines : Lines h.timers false h.moments := (hlapsed.trans hraised) ▸ ha.lines
      refine hlines.lapse ?_ (by simp) (by simp)
      intro t ht
      rw [ha.entries hraised hreachable]
      exact List.mem_map_of_mem ht
    | true =>
      have hlines : Lines h.timers true h.moments := (hlapsed.trans hraised) ▸ ha.lines
      simpa [withLine, ha.dismissed (.inl hraised)] using hlines
  entries := fun _ hleft => absurd hleft (by simp [reachable])
  dismissed := fun _ => rfl
  told := by
    intro tasks htasks numbers hmem
    have hquiet : tasks.any Task.tells = false := by
      simpa using (List.any_eq_false.mp htelling) tasks htasks
    exact absurd hmem (tell_not_mem hquiet numbers)
  used := fun htrue => Bool.noConfusion (htelling.symm.trans htrue)

theorem Agreed.forsake (ha : h.Agreed) (hhandles : h.handles ≠ 0)
    (hlast : ¬ (h.handles = 1 ∧ h.busy = true)) :
    ({ h with handles := h.handles - 1 } : History).forsake.Agreed := by
  have hreachable := reachable_of_handles_ne hhandles
  have hused : h.telling = true → 0 < h.handles - 1 := by
    intro htelling
    have hne : h.handles ≠ 1 := fun hone => hlast ⟨hone, busy_of_telling htelling⟩
    omega
  by_cases hleft : reachable { h with handles := h.handles - 1 } = true
  · rw [forsake_of_reachable hleft]
    exact ha.keep rfl rfl rfl rfl rfl rfl (hleft.trans hreachable.symm) hused [] rfl (by simp)
  · have hnone : h.handles - 1 = 0 := by
      by_contra hsome
      exact hleft (reachable_of_handles_ne hsome)
    have htelling : h.telling = false := by
      cases htelling : h.telling with
      | false => rfl
      | true => exact absurd (hused htelling) (by omega)
    rw [History.forsake, if_neg hleft, hnone]
    exact ha.abandon hreachable htelling

theorem of_timer? {number : Nat} {t : Timer} (ht : h.timer? number = some t) :
    t ∈ h.timers ∧ t.number = number :=
  ⟨List.mem_of_find?_eq_some ht, by simpa using List.find?_some ht⟩

theorem Agreed.poll (ha : h.Agreed) (number : Nat) : (h.step (.poll number)).Agreed := by
  simp only [History.step]
  cases htimer : h.timer? number with
  | none => exact ha
  | some t =>
    obtain ⟨ht, rfl⟩ := of_timer? htimer
    have hnumbers : (h.timers.map fun t' => if t'.number == t.number then t'.polled else t').map
        Timer.number = h.timers.map Timer.number := by
      rw [List.map_map]
      refine List.map_congr_left fun t' _ => ?_
      simp only [Function.comp]
      split <;> simp
    constructor
    case kept =>
      refine Kept.quiet (ha.kept.map ?_ ?_) ?_ rfl
      · intro t'
        split <;> simp
      · intro t'
        split <;> simp
      · rintro n ⟨⟩
        exact ha.kept.lt_next ht
    case lines => exact ha.lines.poll ha.kept ht h.now
    case entries =>
      intro hraised hreachable
      exact (ha.entries hraised hreachable).trans hnumbers.symm
    case dismissed => exact ha.dismissed
    case told =>
      intro tasks htasks numbers hmem t'' ht''
      obtain ⟨t', ht', rfl⟩ := List.mem_map.mp ht''
      have hnumber := ha.told tasks htasks numbers hmem t' ht'
      split <;> simpa using hnumber
    case used => exact ha.used

theorem Agreed.dropTimer (ha : h.Agreed) (number : Nat) : (h.step (.dropTimer number)).Agreed := by
  simp only [History.step]
  cases htimer : h.timer? number with
  | none => exact ha
  | some t =>
    obtain ⟨ht, rfl⟩ := of_timer? htimer
    -- Without a handle there is nothing to deregister.
    have hsignal : (if h.reachable = true then h.signal.deregister t.number else h.signal)
        = h.signal.deregister t.number := by
      split
      · rfl
      · rename_i hunreachable
        have hnone := ha.dismissed (.inr (by simpa using hunreachable))
        rw [QuitSignal.deregister, hnone, List.filter_nil, ← hnone]
    simp only [hsignal]
    constructor
    case kept => exact ha.kept.giveUp (ha.kept.lt_next ht)
    case lines =>
      exact (ha.lines.subset (List.filter_subset_self _)).quiet (by simp)
    case entries =>
      intro hraised hreachable
      have hentries := ha.entries hraised hreachable
      simp only [QuitSignal.deregister, History.note, hentries, List.filter_map]
      rfl
    case dismissed =>
      intro hgone
      simp [QuitSignal.deregister, History.note, ha.dismissed hgone]
    case told =>
      exact fun tasks htasks numbers hmem t' ht' =>
        ha.told tasks htasks numbers hmem t' (List.mem_of_mem_filter ht')
    case used => exact ha.used

theorem Agreed.step (ha : h.Agreed) (hs : h.Settled) (e : Event) : (h.step e).Agreed := by
  cases e with
  | request r => exact ha.request hs r
  | clone =>
    simp only [History.step]
    split
    · exact ha
    · rename_i hhandles
      refine ha.keep rfl rfl rfl rfl rfl rfl ?_ (fun _ => Nat.succ_pos _) [] rfl (by simp)
      rw [reachable_of_handles_ne hhandles]
      exact reachable_of_handles (Nat.succ_pos _)
  | dropHandle =>
    simp only [History.step]
    split
    · exact ha
    · rename_i hguard
      rw [not_or] at hguard
      exact ha.forsake hguard.1 hguard.2
  | wait =>
    simp only [History.step]
    split
    · exact ha
    · exact ha.keep rfl rfl rfl rfl rfl rfl rfl ha.used [] rfl (by simp)
  | leave =>
    simp only [History.step]
    split
    · exact ha.keep rfl rfl rfl rfl rfl rfl rfl ha.used [.released] rfl (by simp [Moment.about])
    · exact ha
  | proceed call => exact ha.proceed hs call
  | poll number => exact ha.poll number
  | dropTimer number => exact ha.dropTimer number
  | advance ms => exact { ha with kept := ha.kept.advance ms }

end History

end BeaconMesh.Quit
