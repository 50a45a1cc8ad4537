import BeaconMesh.Proofs.Quit.Registry

/-!
What a timer says follows from what happened to the signal and from its own time, and never from
what becomes of another timer.
-/

set_option autoImplicit false
set_option relaxedAutoImplicit false

namespace BeaconMesh.Quit

open QuitSignal (Timer Line Polled)

def Task.without (n : Nat) : Task → Task
  | .tell numbers => .tell (numbers.filter fun number => number != n)
  | task => task

theorem Task.eq_or_tell_of_without {n : Nat} {task task' : Task}
    (htask : task'.without n = task.without n) :
    (∃ numbers numbers', task = .tell numbers ∧ task' = .tell numbers' ∧
      (numbers'.filter fun number => number != n) = numbers.filter fun number => number != n) ∨
    task' = task := by
  cases task <;> cases task' <;> simp_all [without]

namespace History

/-- Two histories that may differ in what has become of one timer, and in nothing else but what
was noted. -/
structure Besides (n : Nat) (h h' : History) : Prop where
  raised : h'.signal.raised = h.signal.raised
  nextTimer : h'.signal.nextTimer = h.signal.nextTimer
  entries : (h'.signal.timers.filter fun number => number != n)
    = h.signal.timers.filter fun number => number != n
  kept : h'.signal.callbacks = h.signal.callbacks
  handles : h'.handles = h.handles
  now : h'.now = h.now
  timers : (h'.timers.filter fun t => t.number != n) = h.timers.filter fun t => t.number != n
  callbacks : h'.callbacks = h.callbacks
  calls : h'.calls.map (List.map (Task.without n)) = h.calls.map (List.map (Task.without n))
  announced : h'.announced = h.announced
  waiting : h'.waiting = h.waiting

variable {h h' h'' : History} {n m : Nat}

namespace Besides

theorem refl (n : Nat) (h : History) : Besides n h h :=
  ⟨rfl, rfl, rfl, rfl, rfl, rfl, rfl, rfl, rfl, rfl, rfl⟩

theorem symm (hb : Besides n h h') : Besides n h' h :=
  ⟨hb.raised.symm, hb.nextTimer.symm, hb.entries.symm, hb.kept.symm, hb.handles.symm, hb.now.symm,
    hb.timers.symm, hb.callbacks.symm, hb.calls.symm, hb.announced.symm, hb.waiting.symm⟩

theorem trans (hb : Besides n h h') (hb' : Besides n h' h'') : Besides n h h'' :=
  ⟨hb'.raised.trans hb.raised, hb'.nextTimer.trans hb.nextTimer, hb'.entries.trans hb.entries,
    hb'.kept.trans hb.kept, hb'.handles.trans hb.handles, hb'.now.trans hb.now,
    hb'.timers.trans hb.timers, hb'.callbacks.trans hb.callbacks, hb'.calls.trans hb.calls,
    hb'.announced.trans hb.announced, hb'.waiting.trans hb.waiting⟩

theorem note (hb : Besides n h h') (a b : Moment) : Besides n (h.note a) (h'.note b) :=
  { hb with }

theorem reachable (hb : Besides n h h') : h'.reachable = h.reachable := by
  rw [History.reachable, History.reachable, hb.handles, hb.kept]

theorem timer? (hb : Besides n h h') (hne : m ≠ n) : h'.timer? m = h.timer? m := by
  have hfind : ∀ timers : List Timer, (timers.find? fun t => t.number == m)
      = (timers.filter fun t => t.number != n).find? fun t => t.number == m := by
    intro timers
    rw [List.find?_filter]
    congr 1
    funext t
    by_cases ht : t.number = m
    · simp [ht, hne]
    · simp [ht]
  rw [History.timer?, History.timer?, hfind h'.timers, hfind h.timers, hb.timers]

theorem poll? (hb : Besides n h h') (hne : m ≠ n) : h'.poll? m = h.poll? m := by
  rw [History.poll?, History.poll?, hb.timer? hne, hb.now]

theorem busy (hb : Besides n h h') : h'.busy = h.busy := by
  have hempty : ∀ calls : List (List Task), (calls.any fun tasks => !tasks.isEmpty)
      = (calls.map (List.map (Task.without n))).any fun tasks => !tasks.isEmpty := by
    intro calls
    rw [List.any_map]
    congr 1
    funext tasks
    simp
  rw [History.busy, History.busy, hb.waiting, hempty h'.calls, hempty h.calls, hb.calls]

end Besides

theorem filter_map_eq {f f' : Timer → Timer} (hf : ∀ t, (f t).number = t.number)
    (hf' : ∀ t, (f' t).number = t.number) (hsame : ∀ t, t.number ≠ n → f' t = f t)
    {timers timers' : List Timer}
    (htimers : (timers'.filter fun t => t.number != n) = timers.filter fun t => t.number != n) :
    ((timers'.map f').filter fun t => t.number != n)
      = (timers.map f).filter fun t => t.number != n := by
  have hcomp : ((fun t : Timer => t.number != n) ∘ f) = fun t => t.number != n := by
    funext t
    simp [hf]
  have hcomp' : ((fun t : Timer => t.number != n) ∘ f') = fun t => t.number != n := by
    funext t
    simp [hf']
  rw [List.filter_map, List.filter_map, hcomp, hcomp', htimers]
  refine List.map_congr_left fun t ht => hsame t ?_
  simpa using (List.mem_filter.mp ht).2

theorem contains_eq {numbers numbers' : List Nat} (hne : m ≠ n)
    (hnumbers : (numbers'.filter fun number => number != n)
      = numbers.filter fun number => number != n) :
    numbers'.contains m = numbers.contains m := by
  have hmem : ∀ list : List Nat, m ∈ list ↔ m ∈ list.filter fun number => number != n := by
    simp [hne]
  rw [Bool.eq_iff_iff, List.contains_iff_mem, List.contains_iff_mem, hmem numbers', hmem numbers,
    hnumbers]

namespace Besides

theorem withLine (hb : Besides n h h') {numbers numbers' : List Nat}
    (hnumbers : (numbers'.filter fun number => number != n)
      = numbers.filter fun number => number != n) (line : Line) :
    Besides n (h.withLine numbers line) (h'.withLine numbers' line) := by
  refine { hb with timers := filter_map_eq ?_ ?_ ?_ hb.timers }
  · intro t
    split <;> rfl
  · intro t
    split <;> rfl
  · intro t ht
    rw [contains_eq ht hnumbers]

theorem forsake (hb : Besides n h h') : Besides n h.forsake h'.forsake := by
  rw [History.forsake, History.forsake, hb.reachable]
  split
  · exact hb
  · exact { hb.withLine hb.entries .cut with entries := rfl, kept := rfl }

theorem serve (hb : Besides n h h') (caller : Option Nat) (r : Request Deed) :
    (h'.serve caller r).1.1 = (h.serve caller r).1.1 ∧
      (h'.serve caller r).1.2.map (Task.without n) = (h.serve caller r).1.2.map (Task.without n) ∧
      Besides n (h.serve caller r).2 (h'.serve caller r).2 := by
  cases hraised : h.signal.raised with
  | true =>
    rw [serve_of_raised hraised, serve_of_raised (hb.raised.trans hraised)]
    exact ⟨rfl, rfl, hb.note _ _⟩
  | false =>
    have hraised' := hb.raised.trans hraised
    cases r with
    | raise =>
      rw [serve_raise hraised, serve_raise hraised']
      refine ⟨rfl, ?_, { hb with raised := rfl, entries := rfl, kept := rfl }⟩
      simp [Task.without, hb.entries, hb.kept]
    | ask =>
      rw [serve_ask hraised, serve_ask hraised']
      exact ⟨rfl, rfl, hb.note _ _⟩
    | onRaise holds deed =>
      rw [serve_onRaise hraised, serve_onRaise hraised']
      refine ⟨rfl, rfl, { hb with kept := ?_, callbacks := ?_ }⟩
      · rw [hb.kept, hb.callbacks]
      · rw [hb.callbacks]
    | timeout after =>
      rw [serve_timeout hraised, serve_timeout hraised']
      refine ⟨rfl, rfl, { hb with nextTimer := ?_, entries := ?_, timers := ?_ }⟩
      · rw [hb.nextTimer]
      · rw [List.filter_append, List.filter_append, hb.entries, hb.nextTimer]
      · rw [List.filter_append, List.filter_append, hb.timers, hb.nextTimer, hb.now]

theorem perform (hb : Besides n h h') {task task' : Task}
    (htask : task'.without n = task.without n) :
    (h'.perform task').1.map (Task.without n) = (h.perform task).1.map (Task.without n) ∧
      Besides n (h.perform task).2 (h'.perform task').2 := by
  rcases Task.eq_or_tell_of_without htask with ⟨numbers, numbers', rfl, rfl, hnumbers⟩ | rfl
  · exact ⟨rfl, hb.withLine hnumbers .told⟩
  · cases task' with
    | tell numbers => exact ⟨rfl, hb.withLine rfl .told⟩
    | begin callback => exact ⟨rfl, hb.note _ _⟩
    | go callback deed =>
      cases deed with
      | rest => exact ⟨rfl, hb.note _ _⟩
      | request r next =>
        obtain ⟨hanswer, htasks, hserved⟩ := hb.serve (some callback) r
        refine ⟨?_, hserved⟩
        simp only [History.perform, hanswer, List.map_append, htasks]
    | announce => exact ⟨rfl, { hb with announced := rfl }⟩
    | finish caller => exact ⟨rfl, hb.note _ _⟩

theorem request (hb : Besides n h h') (r : Request Deed) :
    Besides n (h.step (.request r)) (h'.step (.request r)) := by
  obtain ⟨-, htasks, hserved⟩ := hb.serve none r
  have hempty : (h'.serve none r).1.2.isEmpty = (h.serve none r).1.2.isEmpty := by
    rw [← List.isEmpty_map (f := Task.without n), htasks, List.isEmpty_map]
  simp only [History.step, hb.handles, hempty]
  split
  · exact hb
  · split
    · exact hserved
    · refine { hserved with calls := ?_ }
      rw [List.map_append, List.map_append, hserved.calls, List.map_singleton, List.map_singleton,
        htasks]

theorem proceed (hb : Besides n h h') (call : Nat) :
    Besides n (h.step (.proceed call)) (h'.step (.proceed call)) := by
  have hcall : h'.calls[call]?.map (List.map (Task.without n))
      = h.calls[call]?.map (List.map (Task.without n)) := by
    rw [← List.getElem?_map, ← List.getElem?_map, hb.calls]
  simp only [History.step]
  generalize h.calls[call]? = tasks, h'.calls[call]? = tasks' at hcall
  rcases tasks with _ | _ | ⟨task, rest⟩ <;> rcases tasks' with _ | _ | ⟨task', rest'⟩ <;>
    simp only [Option.map_none, Option.map_some, List.map_nil, List.map_cons, reduceCtorEq,
      Option.some.injEq, List.cons.injEq] at hcall
  -- Both have no such call, or one that is done, or one that goes on.
  · exact hb
  · exact hb
  · obtain ⟨hfirst, hdone⟩ := hb.perform hcall.1
    refine { hdone with calls := ?_ }
    rw [List.map_set, List.map_set, hdone.calls, List.map_append, List.map_append, hfirst, hcall.2]

end Besides

theorem besides_poll (n : Nat) (h : History) : Besides n h (h.step (.poll n)) := by
  simp only [step]
  split
  · exact .refl n h
  · have hsame : ((h.timers.map fun t => if t.number == n then t.polled else t).filter
        fun t => t.number != n) = (h.timers.map id).filter fun t => t.number != n := by
      refine filter_map_eq (fun _ => rfl) ?_ ?_ rfl
      · intro t
        split <;> simp
      · intro t ht
        simp [ht]
    rw [List.map_id] at hsame
    exact { Besides.refl n h with timers := hsame }

theorem besides_dropTimer (n : Nat) (h : History) : Besides n h (h.step (.dropTimer n)) := by
  simp only [step]
  split
  · exact .refl n h
  · have hentries : ((if h.reachable then h.signal.deregister n else h.signal).timers.filter
        fun number => number != n) = h.signal.timers.filter fun number => number != n := by
      split <;> simp [QuitSignal.deregister]
    obtain ⟨_, -, hsignal⟩ := signal_dropTimer h n
    rw [hsignal] at hentries
    simp only [hsignal]
    exact { Besides.refl n h with entries := hentries, timers := by simp [note] }

namespace Besides

theorem poll (hb : Besides n h h') (m : Nat) :
    Besides n (h.step (.poll m)) (h'.step (.poll m)) := by
  by_cases hne : m = n
  · subst hne
    exact ((besides_poll m h).symm.trans hb).trans (besides_poll m h')
  · simp only [History.step, hb.timer? hne, hb.now]
    split
    · exact hb
    · refine { hb with now := rfl, timers := filter_map_eq ?_ ?_ (fun _ _ => rfl) hb.timers } <;>
        intro t <;> split <;> simp

theorem dropTimer (hb : Besides n h h') (m : Nat) :
    Besides n (h.step (.dropTimer m)) (h'.step (.dropTimer m)) := by
  by_cases hne : m = n
  · subst hne
    exact ((besides_dropTimer m h).symm.trans hb).trans (besides_dropTimer m h')
  · simp only [History.step, hb.timer? hne, hb.reachable]
    split
    · exact hb
    · have htimers : ((h'.timers.filter fun t => t.number != m).filter fun t => t.number != n)
          = (h.timers.filter fun t => t.number != m).filter fun t => t.number != n := by
        rw [List.filter_comm, hb.timers, List.filter_comm]
      have hentries : ((h'.signal.deregister m).timers.filter fun number => number != n)
          = (h.signal.deregister m).timers.filter fun number => number != n := by
        simp only [QuitSignal.deregister]
        rw [List.filter_comm, hb.entries, List.filter_comm]
      split
      · exact { hb with entries := hentries, timers := htimers }
      · exact { hb with timers := htimers }

theorem step (hb : Besides n h h') (e : Event) : Besides n (h.step e) (h'.step e) := by
  cases e with
  | request r => exact hb.request r
  | clone =>
    simp only [History.step, hb.handles]
    split
    · exact hb
    · exact { hb with handles := rfl }
  | dropHandle =>
    simp only [History.step, hb.handles, hb.busy]
    split
    · exact hb
    · exact forsake { hb with handles := rfl }
  | wait =>
    simp only [History.step, hb.handles, hb.waiting]
    split
    · exact hb
    · exact { hb with handles := rfl, waiting := rfl }
  | leave =>
    simp only [History.step, hb.announced, hb.waiting]
    split
    · exact { hb with announced := rfl, waiting := rfl }
    · exact hb
  | proceed call => exact hb.proceed call
  | poll number => exact hb.poll number
  | dropTimer number => exact hb.dropTimer number
  | advance ms => exact { hb with now := by simp only [History.step, hb.now] }

theorem run (hb : Besides n h h') (events : List Event) :
    Besides n (h.run events) (h'.run events) := by
  induction events generalizing h h' with
  | nil => exact hb
  | cons e events ih => exact ih (hb.step e)

end Besides

theorem Agreed.run (ha : h.Agreed) (hs : h.Settled) (events : List Event) :
    (h.run events).Agreed := by
  induction events generalizing h with
  | nil => exact ha
  | cons e events ih => exact ih (ha.step hs e) (hs.step e)

theorem deadline_le_iff (after : Duration) {time now : Nat} (hle : time ≤ now) :
    time + ticks after ≤ now ↔ after.nanos ≤ (now - time) * 1000000 := by
  unfold ticks
  omega

/-- What a timer says that was registered and has not been given up. -/
theorem Agreed.poll?_eq (ha : h.Agreed) {after : Duration} {time : Nat}
    (hregistered : .registered n after time ∈ h.moments) (hleft : .givenUp n ∉ h.moments)
    (hunheard : .polled n (.ended .cancelled) ∉ h.moments) :
    h.poll? n = some (if h.lapsed then .ended .cancelled
      else if after.nanos ≤ (h.now - time) * 1000000 then .ended .elapsed else .pending) := by
  have hlive : n ∈ h.timers.map Timer.number :=
    (ha.kept.live n).mpr ⟨ha.kept.known _ hregistered n rfl, hleft⟩
  obtain ⟨t, htimer⟩ : ∃ t, h.timer? n = some t := by
    obtain ⟨t, ht, rfl⟩ := List.mem_map.mp hlive
    exact Option.isSome_iff_exists.mp (List.find?_isSome.mpr ⟨t, ht, by simp⟩)
  obtain ⟨ht, rfl⟩ := of_timer? htimer
  obtain ⟨hle, hdeadline⟩ := ha.kept.due t ht after time hregistered
  have hheard : t.line ≠ .heard := mt (ha.lines.heard t ht).mp hunheard
  have hheld := ha.lines.held t ht
  rw [History.poll?, htimer, Option.map_some, Timer.poll]
  cases hlapsed : h.lapsed with
  | true =>
    have hlet : t.line ≠ .held := fun h => Bool.noConfusion (hlapsed.symm.trans (hheld.mp h))
    split <;> simp_all
  | false =>
    simp only [hheld.mpr hlapsed, hdeadline, deadline_le_iff after hle, Bool.false_eq_true,
      if_false]

theorem moments_of_poll? {said : Polled} (hsaid : h.poll? n = some said) :
    (h.step (.poll n)).moments = .polled n said :: h.moments := by
  obtain ⟨t, htimer, rfl⟩ := Option.map_eq_some_iff.mp hsaid
  simp only [step, htimer, note]

end History

/-- Whatever is done about a signal, every timer gets a number of its own. As long as the signal was
not raised and somebody has a handle, it knows the timers that were registered and not given up, and
no others. A timer that was not given up and has not said yet that it is cancelled says so when the
signal was raised and its call has told the timers, which it does before it returns, or when no
handle is left; else it has elapsed if all its time is over since it was registered. What is done
with one timer changes nothing of what another one says, now or later. -/
theorem timers_agree (events : List Event) :
    let h := History.fresh.run events
    (∀ n after time earlier, .registered n after time :: earlier <:+ h.moments →
      ∀ after' time', .registered n after' time' ∉ earlier) ∧
    (h.signal.raised = false → h.reachable = true →
      h.signal.timers.Nodup ∧ ∀ n, n ∈ h.signal.timers ↔
        (∃ after time, .registered n after time ∈ h.moments) ∧ .givenUp n ∉ h.moments) ∧
    (∀ n after time, .registered n after time ∈ h.moments → .givenUp n ∉ h.moments →
      .polled n (.ended .cancelled) ∉ h.moments →
      ∃ said, h.poll? n = some said ∧ (h.step (.poll n)).moments = .polled n said :: h.moments ∧
        said = if (h.signal.raised && !h.telling) || !h.reachable then .ended .cancelled
          else if after.nanos ≤ (h.now - time) * 1000000 then .ended .elapsed else .pending) ∧
    (h.telling = true → h.signal.raised = true ∧ ¬ Returned h.moments) ∧
    ∀ n m, m ≠ n → ∀ later,
      ((h.step (.poll n)).run later).poll? m = (h.run later).poll? m ∧
      ((h.step (.dropTimer n)).run later).poll? m = (h.run later).poll? m := by
  intro h
  have hs : h.Settled := History.settled_fresh.run events
  have ha : h.Agreed := History.agreed_fresh.run History.settled_fresh events
  refine ⟨ha.kept.once, ?_, ?_, hs.of_telling, ?_⟩
  · intro hraised hreachable
    rw [ha.entries hraised hreachable]
    refine ⟨ha.kept.distinct, fun n => (ha.kept.live n).trans (and_congr_left' ?_)⟩
    constructor
    · exact ha.kept.registered n
    · rintro ⟨after, time, hmem⟩
      exact ha.kept.known _ hmem n rfl
  · intro n after time hregistered hleft hunheard
    have hsaid := ha.poll?_eq hregistered hleft hunheard
    exact ⟨_, hsaid, History.moments_of_poll? hsaid, rfl⟩
  · intro n m hne later
    exact ⟨((History.besides_poll n h).run later).poll? hne,
      ((History.besides_dropTimer n h).run later).poll? hne⟩

-- One timer is given up, one has elapsed, and one is cancelled with the last handle.
example :
    let h := History.fresh.run [.request (.timeout (.ofMillis 5)),
      .request (.timeout (.ofMillis 5)), .request (.timeout (.ofMillis 9)), .dropTimer 0,
      .advance 5]
    h.signal.timers = [1, 2] ∧ h.poll? 0 = none ∧ h.poll? 1 = some (.ended .elapsed) ∧
      h.poll? 2 = some .pending ∧ (h.step .dropHandle).poll? 2 = some (.ended .cancelled) := by
  decide

end BeaconMesh.Quit
