import BeaconMesh.Queue.History
import Mathlib.Data.List.Basic

/-!
Operations run one at a time and in the order in which they were handed in, whatever they do and
whoever still waits for them.
-/

set_option autoImplicit false
set_option relaxedAutoImplicit false

namespace BeaconMesh

variable {job result : Type}

namespace OperationQueue

theorem submit_of_admits {q : OperationQueue job result} (h : q.admits = true) (j : job) :
    q.submit j = (q.nextTicket,
      { q with nextTicket := q.nextTicket + 1, waiting := q.waiting ++ [(q.nextTicket, j)] }) := by
  obtain ⟨hopen, hroom⟩ : q.isOpen = true ∧ q.waiting.length < q.capacity := by
    simpa [admits] using h
  have hfull : ¬ q.capacity ≤ q.waiting.length := by omega
  simp [submit, hopen, hfull]

theorem submit_of_not_admits {q : OperationQueue job result} (h : q.admits = false) (j : job) :
    ∃ fault, q.submit j = (q.nextTicket, { q with
      nextTicket := q.nextTicket + 1
      answers := (q.nextTicket, .error fault) :: q.answers }) := by
  cases hopen : q.isOpen with
  | false => exact ⟨.closed, by simp [submit, hopen, answer]⟩
  | true =>
    have hfull : q.capacity ≤ q.waiting.length := by
      have : ¬ q.waiting.length < q.capacity := by simpa [admits, hopen] using h
      omega
    exact ⟨.full, by simp [submit, hopen, hfull, answer]⟩

theorem start?_eq_some {q q' : OperationQueue job result} {op : Nat × job}
    (h : q.start? = some (op, q')) :
    ∃ rest, q.running = none ∧ q.waiting = op :: rest ∧
      q' = { q with running := some op, waiting := rest } := by
  unfold start? at h
  split at h
  · rename_i next rest hrunning hwaiting
    cases h
    exact ⟨rest, hrunning, hwaiting, rfl⟩
  · cases h

theorem settle_eq (q : OperationQueue job result) (r : Except QueueFault result) :
    ∃ answers, q.settle r = { q with running := none, answers := answers } := by
  cases hrunning : q.running with
  | none => exact ⟨q.answers, by rw [settle, hrunning]; cases q; cases hrunning; rfl⟩
  | some op => exact ⟨(op.1, r) :: q.answers, by rw [settle, hrunning]; rfl⟩

end OperationQueue

namespace Queue.History

/-- The two moments in the life of an operation. -/
def lifeOf (op : Nat × job) : List (Moment job) := [.started op, .settled op]

/-- The operations that are over went through their lives one after another, then came the one
that runs; those two kinds and the ones that wait are all that were let in, in this order, unless
the queue has ended for good. -/
structure Serial (h : History job result) (finished : List (Nat × job)) : Prop where
  moments : h.moments = finished.flatMap lifeOf ++ h.queue.running.toList.map Moment.started
  line : finished ++ h.queue.running.toList ++ h.queue.waiting <+: h.accepted
  complete : h.queue.isOpen = true →
    finished ++ h.queue.running.toList ++ h.queue.waiting = h.accepted
  ascending : h.accepted.Pairwise fun a b => a.1 < b.1
  issued : ∀ op ∈ h.accepted, op.1 < h.queue.nextTicket

theorem serial_ofCapacity (capacity : Nat) :
    Serial (.ofCapacity capacity : History job result) [] := by
  refine ⟨rfl, ?_, fun _ => rfl, .nil, ?_⟩
  · exact List.nil_prefix
  · intro op hop
    cases hop

private theorem serial_submit {h : History job result} {finished : List (Nat × job)}
    (hs : Serial h finished) (j : job) : Serial (h.step (.submit j)) finished := by
  cases hadmits : h.queue.admits with
  | true =>
    have hopen : h.queue.isOpen = true := by
      simp only [OperationQueue.admits, Bool.and_eq_true] at hadmits
      exact hadmits.1
    have hline := hs.complete hopen
    simp only [step, hadmits, OperationQueue.submit_of_admits hadmits, if_true]
    have hline' : finished ++ h.queue.running.toList
        ++ (h.queue.waiting ++ [(h.queue.nextTicket, j)])
          = h.accepted ++ [(h.queue.nextTicket, j)] := by
      rw [← List.append_assoc, hline]
    refine ⟨hs.moments, hline' ▸ List.prefix_rfl, fun _ => hline', ?_, ?_⟩
    · refine List.pairwise_append.mpr ⟨hs.ascending, List.pairwise_singleton _ _, ?_⟩
      intro a ha b hb
      obtain rfl := List.mem_singleton.mp hb
      exact hs.issued a ha
    · intro op hop
      rcases List.mem_append.mp hop with hop | hop
      · exact Nat.lt_succ_of_lt (hs.issued op hop)
      · obtain rfl := List.mem_singleton.mp hop
        exact Nat.lt_succ_self _
  | false =>
    obtain ⟨fault, hsubmit⟩ := OperationQueue.submit_of_not_admits hadmits j
    simp only [step, hadmits, hsubmit]
    refine ⟨hs.moments, hs.line, hs.complete, hs.ascending, ?_⟩
    intro op hop
    exact Nat.lt_succ_of_lt (hs.issued op hop)

private theorem serial_start {h : History job result} {finished : List (Nat × job)}
    (hs : Serial h finished) : Serial (h.step .start) finished := by
  cases hstart : h.queue.start? with
  | none => simpa only [step, hstart] using hs
  | some next =>
    obtain ⟨op, queue⟩ := next
    obtain ⟨rest, hrunning, hwaiting, rfl⟩ := OperationQueue.start?_eq_some hstart
    have hmoments := hs.moments
    have hline := hs.line
    have hcomplete := hs.complete
    simp only [hrunning, hwaiting, Option.toList_none, List.map_nil, List.append_nil]
      at hmoments hline hcomplete
    simp only [step, hstart]
    refine ⟨?_, ?_, ?_, hs.ascending, hs.issued⟩
    · rw [hmoments]
      rfl
    · simpa using hline
    · simpa using hcomplete

private theorem serial_close {h : History job result} {finished : List (Nat × job)}
    (hs : Serial h finished) {queue : OperationQueue job result} (hrunning : queue.running = none)
    (hwaiting : queue.waiting <+: h.queue.waiting)
    (hopen : queue.isOpen = true → h.queue.isOpen = true ∧ queue.waiting = h.queue.waiting)
    (hnext : queue.nextTicket = h.queue.nextTicket) :
    Serial (h.close queue) (finished ++ h.queue.running.toList) := by
  refine ⟨?_, ?_, ?_, hs.ascending, ?_⟩
  · show h.moments ++ h.queue.running.toList.map Moment.settled = _
    rw [hs.moments]
    cases hcurrent : h.queue.running <;> simp [close, hrunning, lifeOf]
  · obtain ⟨lost, hlost⟩ := hwaiting
    show finished ++ h.queue.running.toList ++ queue.running.toList ++ queue.waiting <+: h.accepted
    refine List.IsPrefix.trans ⟨lost, ?_⟩ hs.line
    rw [hrunning, ← hlost]
    simp
  · intro hstill
    obtain ⟨hbefore, hsame⟩ := hopen hstill
    show finished ++ h.queue.running.toList ++ queue.running.toList ++ queue.waiting = h.accepted
    rw [hrunning, hsame, ← hs.complete hbefore]
    simp
  · intro op hop
    show op.1 < queue.nextTicket
    rw [hnext]
    exact hs.issued op hop

/-- Nothing that can happen lets operations overlap or overtake each other. -/
theorem serial_step {h : History job result} {finished : List (Nat × job)} (hs : Serial h finished)
    (event : Event job result) : ∃ finished', Serial (h.step event) finished' := by
  cases event with
  | submit j => exact ⟨finished, serial_submit hs j⟩
  | drop ticket => exact ⟨finished, hs.moments, hs.line, hs.complete, hs.ascending, hs.issued⟩
  | start => exact ⟨finished, serial_start hs⟩
  | settle r =>
    obtain ⟨answers, hsettle⟩ := h.queue.settle_eq r
    rw [step, hsettle]
    exact ⟨_, serial_close hs rfl List.prefix_rfl (fun hopen => ⟨hopen, rfl⟩) rfl⟩
  | collapse =>
    refine ⟨_, serial_close hs rfl List.nil_prefix ?_ rfl⟩
    intro hopen
    cases hopen

theorem serial_run {h : History job result} {finished : List (Nat × job)} (hs : Serial h finished)
    (events : List (Event job result)) : ∃ finished', Serial (h.run events) finished' := by
  induction events generalizing h finished with
  | nil => exact ⟨finished, hs⟩
  | cons event events ih =>
    obtain ⟨finished', hs'⟩ := serial_step hs event
    exact ih hs'

private theorem filterMap_started?_lives (finished : List (Nat × job)) :
    (finished.flatMap lifeOf).filterMap Moment.started? = finished := by
  induction finished with
  | nil => rfl
  | cons op finished ih =>
    rw [List.flatMap_cons, List.filterMap_append, ih]
    rfl

private theorem filterMap_settled?_lives (finished : List (Nat × job)) :
    (finished.flatMap lifeOf).filterMap Moment.settled? = finished := by
  induction finished with
  | nil => rfl
  | cons op finished ih =>
    rw [List.flatMap_cons, List.filterMap_append, ih]
    rfl

theorem started_eq {h : History job result} {finished : List (Nat × job)} (hs : Serial h finished) :
    h.started = finished ++ h.queue.running.toList := by
  rw [started, hs.moments, List.filterMap_append, filterMap_started?_lives]
  cases h.queue.running <;> rfl

theorem settled_eq {h : History job result} {finished : List (Nat × job)} (hs : Serial h finished) :
    h.settled = finished := by
  rw [settled, hs.moments, List.filterMap_append, filterMap_settled?_lives]
  cases h.queue.running <;> simp [Moment.settled?]

private theorem settled_before_start {finished : List (Nat × job)} {current : Option (Nat × job)}
    {before after : List (Moment job)} {op earlier : Nat × job}
    (hmoments : finished.flatMap lifeOf ++ current.toList.map Moment.started
      = before ++ .started op :: after)
    (hearlier : .started earlier ∈ before) : .settled earlier ∈ before := by
  induction finished generalizing before with
  | nil =>
    rcases current with _ | current
    · have := congrArg List.length hmoments
      simp at this
    · -- only one operation has started, and nothing stands before it
      rcases before with _ | ⟨first, before⟩
      · cases hearlier
      · have := congrArg List.length hmoments
        simp at this
  | cons head finished ih =>
    rcases before with _ | ⟨first, _ | ⟨second, before⟩⟩
    · cases hearlier
    · simp [lifeOf] at hmoments
    · simp only [List.flatMap_cons, lifeOf, List.cons_append, List.nil_append,
        List.cons.injEq] at hmoments
      obtain ⟨rfl, rfl, hrest⟩ := hmoments
      simp only [List.mem_cons, Moment.started.injEq, reduceCtorEq, false_or] at hearlier
      rcases hearlier with rfl | hlater
      · simp
      · exact List.mem_cons_of_mem _ (List.mem_cons_of_mem _ (ih hrest hlater))

/-- The operations that were handed in are numbered by their tickets. -/
structure Numbered (h : History job result) (jobs : List job) : Prop where
  next : h.queue.nextTicket = jobs.length
  accepted : ∀ op ∈ h.accepted, jobs[op.1]? = some op.2

private theorem numbered_submit {h : History job result} {jobs : List job} (hn : Numbered h jobs)
    (j : job) : Numbered (h.step (.submit j)) (jobs ++ [j]) := by
  have hearlier : ∀ op ∈ h.accepted, (jobs ++ [j])[op.1]? = some op.2 := by
    intro op hop
    have hjob := hn.accepted op hop
    have hlt : op.1 < jobs.length := (List.getElem?_eq_some_iff.mp hjob).1
    rw [List.getElem?_append_left hlt, hjob]
  cases hadmits : h.queue.admits with
  | true =>
    simp only [step, hadmits, OperationQueue.submit_of_admits hadmits, if_true]
    refine ⟨by simp [hn.next], ?_⟩
    intro op hop
    rcases List.mem_append.mp hop with hop | hop
    · exact hearlier op hop
    · obtain rfl := List.mem_singleton.mp hop
      simp [hn.next]
  | false =>
    obtain ⟨fault, hsubmit⟩ := OperationQueue.submit_of_not_admits hadmits j
    simp only [step, hadmits, hsubmit]
    exact ⟨by simp [hn.next], hearlier⟩

theorem numbered_step {h : History job result} {jobs : List job} (hn : Numbered h jobs)
    (event : Event job result) : Numbered (h.step event) (jobs ++ event.job?.toList) := by
  cases event with
  | submit j => exact numbered_submit hn j
  | drop ticket => exact (List.append_nil jobs).symm ▸ ⟨hn.next, hn.accepted⟩
  | start =>
    show Numbered _ (jobs ++ [])
    rw [List.append_nil]
    cases hstart : h.queue.start? with
    | none => simpa only [step, hstart] using hn
    | some next =>
      obtain ⟨op, queue⟩ := next
      obtain ⟨rest, _, _, rfl⟩ := OperationQueue.start?_eq_some hstart
      simp only [step, hstart]
      exact ⟨hn.next, hn.accepted⟩
  | settle r =>
    show Numbered _ (jobs ++ [])
    obtain ⟨answers, hsettle⟩ := h.queue.settle_eq r
    rw [List.append_nil, step, hsettle]
    exact ⟨hn.next, hn.accepted⟩
  | collapse => exact (List.append_nil jobs).symm ▸ ⟨hn.next, hn.accepted⟩

theorem numbered_run {h : History job result} {jobs : List job} (hn : Numbered h jobs)
    (events : List (Event job result)) :
    Numbered (h.run events) (jobs ++ events.filterMap Event.job?) := by
  induction events generalizing h jobs with
  | nil =>
    rw [List.filterMap_nil, List.append_nil]
    exact hn
  | cons event events ih =>
    have hrest := ih (numbered_step hn event)
    have hjobs : jobs ++ event.job?.toList ++ events.filterMap Event.job?
        = jobs ++ (event :: events).filterMap Event.job? := by
      cases hjob : event.job? <;> simp [hjob]
    rw [hjobs] at hrest
    exact hrest

/-- Two histories that differ in the tickets that are still held, and in nothing else. -/
def SameWork (h h' : History job result) : Prop :=
  h.queue = h'.queue ∧ h.accepted = h'.accepted ∧ h.moments = h'.moments

private theorem sameWork_drop {h h' : History job result} (hsame : SameWork h h') (ticket : Nat) :
    SameWork (h.step (.drop ticket)) h' := hsame

theorem sameWork_step {h h' : History job result} (hsame : SameWork h h')
    (event : Event job result) : SameWork (h.step event) (h'.step event) := by
  obtain ⟨queue, held, accepted, moments⟩ := h
  obtain ⟨queue', held', accepted', moments'⟩ := h'
  obtain ⟨rfl, rfl, rfl⟩ := hsame
  cases event with
  | start =>
    simp only [step]
    cases queue.start? <;> exact ⟨rfl, rfl, rfl⟩
  | _ => exact ⟨rfl, rfl, rfl⟩

/-- Giving up tickets has no effect on the work that is done. -/
theorem sameWork_run_without_drops {h h' : History job result} (hsame : SameWork h h')
    (events : List (Event job result)) :
    SameWork (h.run events) (h'.run (events.filter fun event => !event.isDrop)) := by
  induction events generalizing h h' with
  | nil => exact hsame
  | cons event events ih =>
    cases hdrop : event.isDrop with
    | true =>
      obtain ⟨ticket, rfl⟩ : ∃ ticket, event = .drop ticket := by
        cases event <;> first | exact ⟨_, rfl⟩ | cases hdrop
      exact ih (sameWork_drop hsame ticket)
    | false =>
      rw [List.filter_cons_of_pos (by simp [hdrop])]
      exact ih (sameWork_step hsame event)

/-- Whatever happens to a queue, in whatever order: what has started is a beginning of what was let
in, in the order of the submissions and each operation once; whatever started before an operation
starts has settled before, so at most one has started and not settled; and it is all the same if
nobody gives up a ticket. -/
theorem run_serial (capacity : Nat) (events : List (Event job result)) :
    let h : History job result := run (.ofCapacity capacity) events
    let patient : History job result :=
      run (.ofCapacity capacity) (events.filter fun event => !event.isDrop)
    h.started <+: h.accepted ∧ h.started.Nodup ∧
      (h.accepted.Pairwise fun a b => a.1 < b.1) ∧
      (∀ op ∈ h.accepted, (events.filterMap Event.job?)[op.1]? = some op.2) ∧
      (∀ before op after earlier, h.moments = before ++ .started op :: after →
        .started earlier ∈ before → .settled earlier ∈ before) ∧
      (∀ a ∈ h.started, ∀ b ∈ h.started, a ∉ h.settled → b ∉ h.settled → a = b) ∧
      patient.accepted = h.accepted ∧ patient.started = h.started := by
  intro h patient
  obtain ⟨finished, hs⟩ := serial_run (serial_ofCapacity capacity) events
  change Serial h finished at hs
  have hn : Numbered h (events.filterMap Event.job?) := by
    have hfresh : Numbered (.ofCapacity capacity : History job result) [] :=
      ⟨rfl, fun op hop => nomatch hop⟩
    simpa using numbered_run hfresh events
  obtain ⟨_, haccepted, hmoments⟩ : SameWork h patient :=
    sameWork_run_without_drops ⟨rfl, rfl, rfl⟩ events
  have hbeginning : h.started <+: h.accepted := by
    rw [started_eq hs]
    exact (List.prefix_append _ _).trans hs.line
  refine ⟨hbeginning, ?_, hs.ascending, hn.accepted, ?_, ?_, haccepted.symm, ?_⟩
  · have hdistinct : h.accepted.Nodup := hs.ascending.imp fun hlt heq => by
      rw [heq] at hlt
      exact Nat.lt_irrefl _ hlt
    exact hdistinct.sublist hbeginning.sublist
  · intro before op after earlier hsplit hearlier
    rw [hs.moments] at hsplit
    exact settled_before_start hsplit hearlier
  · intro a ha b hb hana hbnb
    rw [started_eq hs] at ha hb
    rw [settled_eq hs] at hana hbnb
    have harunning := (List.mem_append.mp ha).resolve_left hana
    have hbrunning := (List.mem_append.mp hb).resolve_left hbnb
    rw [Option.mem_toList] at harunning hbrunning
    exact Option.some.inj (harunning.symm.trans hbrunning)
  · rw [started, started, hmoments]

end Queue.History

end BeaconMesh
