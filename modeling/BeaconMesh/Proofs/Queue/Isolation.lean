import BeaconMesh.Proofs.Queue.Serial
import BeaconMesh.Queue.Conduct
import Mathlib.Data.List.Perm.Subperm

/-!
What an operation that breaks down does to the others. If it breaks down while it runs, only its own
answer is affected. If it breaks down when it is called, it takes the worker down: it is answered as
if the queue had been closed, and so is every operation behind it, none of which ever starts.
-/

set_option autoImplicit false
set_option relaxedAutoImplicit false

namespace BeaconMesh

variable {job result : Type}

namespace OperationQueue

theorem answer?_cons (q : OperationQueue job result) (ticket : Nat)
    (answers : List (Nat × Except QueueFault result)) (a : Nat × Except QueueFault result) :
    ({ q with answers := a :: answers } : OperationQueue job result).answer? ticket
      = if a.1 = ticket then some a.2
        else ({ q with answers := answers } : OperationQueue job result).answer? ticket := by
  by_cases heq : a.1 = ticket
  · simp [answer?, heq]
  · simp [answer?, heq]

theorem answer?_collapse (q : OperationQueue job result) (ticket : Nat) :
    q.collapse.answer? ticket
      = if ticket ∈ (q.running.toList ++ q.waiting).map Prod.fst then some (.error .closed)
        else q.answer? ticket := by
  have hlost : ∀ ops : List (Nat × job),
      ({ q with answers := ops.map (fun op => (op.1, .error .closed)) ++ q.answers } :
        OperationQueue job result).answer? ticket
        = if ticket ∈ ops.map Prod.fst then some (.error .closed) else q.answer? ticket := by
    intro ops
    induction ops with
    | nil => rfl
    | cons op ops ih =>
      rw [List.map_cons, List.cons_append, answer?_cons, ih]
      by_cases heq : op.1 = ticket
      · rw [if_pos heq, if_pos (by simp [heq])]
      · have htail : ticket ∈ (op :: ops).map Prod.fst ↔ ticket ∈ ops.map Prod.fst := by
          rw [List.map_cons, List.mem_cons, or_iff_right (Ne.symm heq)]
        rw [if_neg heq]
        simp only [htail]
  exact hlost (q.running.toList ++ q.waiting)

theorem answer?_settle {q : OperationQueue job result} {op : Nat × job}
    (hrunning : q.running = some op) (r : Except QueueFault result) (ticket : Nat) :
    (q.settle r).answer? ticket = if op.1 = ticket then some r else q.answer? ticket := by
  rw [settle, hrunning]
  exact answer?_cons { q with running := none } ticket q.answers (op.1, r)

theorem answer?_conclude_self {q : OperationQueue job result} {op : Nat × job}
    (hrunning : q.running = some op) (c : Queue.Conduct result) :
    (q.conclude c).answer? op.1 = some c.answer := by
  cases c with
  | breaksWhenCalled =>
    rw [conclude, answer?_collapse, if_pos (by simp [hrunning])]
    rfl
  | breaksWhenRun =>
    rw [conclude, answer?_settle hrunning, if_pos rfl]
    rfl
  | ends r =>
    rw [conclude, answer?_settle hrunning, if_pos rfl]
    rfl

theorem answer?_conclude_of_not_mem {q : OperationQueue job result} {ticket : Nat}
    (hother : ticket ∉ (q.running.toList ++ q.waiting).map Prod.fst) (c : Queue.Conduct result) :
    (q.conclude c).answer? ticket = q.answer? ticket := by
  have hsettle : ∀ r, (q.settle r).answer? ticket = q.answer? ticket := by
    intro r
    cases hrunning : q.running with
    | none => rw [settle, hrunning]
    | some op =>
      rw [answer?_settle hrunning, if_neg]
      rintro rfl
      exact hother (by simp [hrunning])
  cases c with
  | breaksWhenCalled => rw [conclude, answer?_collapse, if_neg hother]
  | breaksWhenRun => exact hsettle _
  | ends r => exact hsettle _

theorem isOpen_conclude {q : OperationQueue job result} (hopen : q.isOpen = true)
    (c : Queue.Conduct result) :
    (q.conclude c).isOpen = true ↔ c ≠ .breaksWhenCalled := by
  have hsettle : ∀ r, (q.settle r).isOpen = true := by
    intro r
    obtain ⟨answers, heq⟩ := q.settle_eq r
    rw [heq]
    exact hopen
  cases c with
  | breaksWhenCalled => simp [conclude, collapse]
  | breaksWhenRun => simp [conclude, hsettle]
  | ends r => simp [conclude, hsettle]

end OperationQueue

namespace Queue

def Conduct.event : Conduct result → Event (Conduct result) result
  | .breaksWhenCalled => .collapse
  | .breaksWhenRun => .settle (.error .panicked)
  | .ends r => .settle (.ok r)

namespace History

variable {h h' : History (Conduct result) result} {finished : List (Nat × Conduct result)}

theorem close_conclude (h : History (Conduct result) result) (c : Conduct result) :
    h.close (h.queue.conclude c) = h.step c.event := by
  cases c <;> rfl

theorem take_eq_run (h : History (Conduct result) result) (s : Signal result) :
    ∃ events, h.take s = h.run events := by
  cases s with
  | submit c => exact ⟨[.submit c], rfl⟩
  | drop ticket => exact ⟨[.drop ticket], rfl⟩
  | start => exact ⟨[.start], rfl⟩
  | proceed =>
    cases hrunning : h.queue.running with
    | none => exact ⟨[], by simp only [take, hrunning]; rfl⟩
    | some op => exact ⟨[op.2.event], by simp only [take, hrunning, close_conclude]; rfl⟩

theorem serial_take (hs : Serial h finished) (s : Signal result) :
    Serial (h.take s) (h.take s).settled := by
  obtain ⟨events, htake⟩ := h.take_eq_run s
  obtain ⟨finished', hs'⟩ := serial_run hs events
  rw [← htake] at hs'
  rw [settled_eq hs']
  exact hs'

theorem settled_close (h : History job result) (queue : OperationQueue job result) :
    (h.close queue).settled = h.settled ++ h.queue.running.toList := by
  rw [settled, close, List.filterMap_append, settled]
  cases h.queue.running <;> rfl

theorem Serial.ticket_not_mem {h : History job result} {finished : List (Nat × job)}
    (hs : Serial h finished) {op : Nat × job} (hop : op ∈ finished) :
    op.1 ∉ (h.queue.running.toList ++ h.queue.waiting).map Prod.fst := by
  intro hmem
  obtain ⟨other, hother, heq⟩ := List.mem_map.mp hmem
  have hascending := hs.ascending.sublist hs.line.sublist
  rw [List.append_assoc] at hascending
  have hlt := (List.pairwise_append.mp hascending).2.2 op hop other hother
  omega

theorem Serial.mem_accepted {h : History job result} {finished : List (Nat × job)}
    (hs : Serial h finished) {op : Nat × job} (hop : op ∈ finished) : op ∈ h.accepted :=
  hs.line.subset (List.mem_append_left _ (List.mem_append_left _ hop))

/-- Every operation that has settled was answered by what it did. None of these has broken down
when it was called as long as the queue is open; if it is not, the last of them has, and all that
were let in after it have been answered by `closed`. -/
structure Isolated (h : History (Conduct result) result) : Prop where
  serial : Serial h h.settled
  answered : ∀ op ∈ h.settled, h.queue.answer? op.1 = some op.2.answer
  whole : h.queue.isOpen = true → ∀ op ∈ h.settled, op.2 ≠ .breaksWhenCalled
  broken : h.queue.isOpen = false → h.queue.running = none ∧ h.queue.waiting = [] ∧
    ∃ earlier last lost, h.settled = earlier ++ [last] ∧ last.2 = .breaksWhenCalled ∧
      (∀ op ∈ earlier, op.2 ≠ .breaksWhenCalled) ∧ h.accepted = h.settled ++ lost ∧
      ∀ op ∈ lost, h.queue.answer? op.1 = some (.error .closed)

theorem isolated_ofCapacity (capacity : Nat) :
    Isolated (.ofCapacity capacity : History (Conduct result) result) where
  serial := serial_ofCapacity capacity
  answered := fun _ hop => nomatch hop
  whole := fun _ _ hop => nomatch hop
  broken := fun hclosed => nomatch hclosed

private theorem Isolated.transfer (hi : Isolated h) (hs : Serial h' h'.settled)
    (hsettled : h'.settled = h.settled) (hopen : h'.queue.isOpen = h.queue.isOpen)
    (hanswers : ∀ op ∈ h.accepted, h'.queue.answer? op.1 = h.queue.answer? op.1)
    (hclosed : h.queue.isOpen = false →
      h'.queue.running = none ∧ h'.queue.waiting = [] ∧ h'.accepted = h.accepted) :
    Isolated h' where
  serial := hs
  answered := by
    intro op hop
    rw [hsettled] at hop
    rw [hanswers op (hi.serial.mem_accepted hop), hi.answered op hop]
  whole := by
    rw [hopen, hsettled]
    exact hi.whole
  broken := by
    intro hdown
    rw [hopen] at hdown
    obtain ⟨hrunning, hwaiting, haccepted⟩ := hclosed hdown
    obtain ⟨-, -, earlier, last, lost, hlast, hbroke, hwhole, hline, hlost⟩ := hi.broken hdown
    refine ⟨hrunning, hwaiting, earlier, last, lost, hsettled.trans hlast, hbroke, hwhole, ?_, ?_⟩
    · rw [haccepted, hsettled, hline]
    · intro op hop
      rw [hanswers op (by rw [hline]; exact List.mem_append_right _ hop), hlost op hop]

private theorem isolated_submit (hi : Isolated h) (c : Conduct result) :
    Isolated (h.take (.submit c)) := by
  have hs := serial_take hi.serial (.submit c)
  cases hadmits : h.queue.admits with
  | true =>
    have hopen : h.queue.isOpen = true := by
      simp only [OperationQueue.admits, Bool.and_eq_true] at hadmits
      exact hadmits.1
    refine hi.transfer hs rfl ?_ ?_ (fun hclosed => absurd (hopen.symm.trans hclosed) (by decide))
    all_goals simp only [take, step, OperationQueue.submit_of_admits hadmits]
    exact fun _ _ => rfl
  | false =>
    obtain ⟨fault, hsubmit⟩ := OperationQueue.submit_of_not_admits hadmits c
    refine hi.transfer hs rfl ?_ ?_ ?_
    all_goals simp only [take, step, hsubmit, hadmits]
    · intro op hop
      have hissued := hi.serial.issued op hop
      exact (OperationQueue.answer?_cons _ _ _ _).trans (if_neg (by simp only; omega))
    · intro hclosed
      obtain ⟨hrunning, hwaiting, -⟩ := hi.broken hclosed
      exact ⟨hrunning, hwaiting, rfl⟩

private theorem isolated_start (hi : Isolated h) : Isolated (h.take .start) := by
  have hs := serial_take hi.serial .start
  cases hstart : h.queue.start? with
  | none => simpa only [take, step, hstart] using hi
  | some next =>
    obtain ⟨op, queue⟩ := next
    obtain ⟨rest, hrunning, hwaiting, rfl⟩ := OperationQueue.start?_eq_some hstart
    refine hi.transfer hs ?_ ?_ ?_ ?_
    all_goals simp only [take, step, hstart]
    · rw [settled, List.filterMap_append]
      exact List.append_nil _
    · exact fun _ _ => rfl
    · intro hclosed
      rw [(hi.broken hclosed).2.1] at hwaiting
      cases hwaiting

private theorem isolated_proceed (hi : Isolated h) : Isolated (h.take .proceed) := by
  have hs := serial_take hi.serial .proceed
  cases hrunning : h.queue.running with
  | none => simpa only [take, hrunning] using hi
  | some op =>
    have hopen : h.queue.isOpen = true := by
      by_contra hclosed
      exact nomatch hrunning.symm.trans (hi.broken (by simpa using hclosed)).1
    have hline : h.settled ++ [op] ++ h.queue.waiting = h.accepted := by
      simpa [hrunning] using hi.serial.complete hopen
    have htake : h.take .proceed = h.close (h.queue.conclude op.2) := by
      simp only [take, hrunning]
    rw [htake] at hs ⊢
    have hsettled : (h.close (h.queue.conclude op.2)).settled = h.settled ++ [op] := by
      rw [settled_close, hrunning]
      rfl
    refine ⟨hs, ?_, ?_, ?_⟩
    · intro e he
      rw [hsettled] at he
      rcases List.mem_append.mp he with he | he
      · exact (OperationQueue.answer?_conclude_of_not_mem (hi.serial.ticket_not_mem he) _).trans
          (hi.answered e he)
      · rw [List.mem_singleton.mp he]
        exact OperationQueue.answer?_conclude_self hrunning op.2
    · intro hstill e he
      rw [hsettled] at he
      rcases List.mem_append.mp he with he | he
      · exact hi.whole hopen e he
      · rw [List.mem_singleton.mp he]
        exact (OperationQueue.isOpen_conclude hopen op.2).mp hstill
    · intro hdown
      have hbroke : op.2 = .breaksWhenCalled := by
        by_contra hnot
        exact nomatch ((OperationQueue.isOpen_conclude hopen op.2).mpr hnot).symm.trans hdown
      have hqueue : h.queue.conclude op.2 = h.queue.collapse := by
        rw [hbroke]
        rfl
      refine ⟨?_, ?_, h.settled, op, h.queue.waiting, hsettled, hbroke, hi.whole hopen, ?_, ?_⟩
      · rw [hqueue]
        rfl
      · rw [hqueue]
        rfl
      · rw [hsettled, hline]
        rfl
      · intro e he
        rw [hqueue]
        show h.queue.collapse.answer? e.1 = _
        rw [OperationQueue.answer?_collapse, if_pos]
        exact List.mem_map_of_mem (List.mem_append_right _ he)

theorem isolated_take (hi : Isolated h) (s : Signal result) : Isolated (h.take s) := by
  cases s with
  | submit c => exact isolated_submit hi c
  | drop ticket => exact ⟨serial_take hi.serial _, hi.answered, hi.whole, hi.broken⟩
  | start => exact isolated_start hi
  | proceed => exact isolated_proceed hi

theorem isolated_follow (hi : Isolated h) (signals : List (Signal result)) :
    Isolated (h.follow signals) := by
  induction signals generalizing h with
  | nil => exact hi
  | cons s signals ih => exact ih (isolated_take hi s)

theorem Serial.nodup_accepted {h : History job result} {finished : List (Nat × job)}
    (hs : Serial h finished) : h.accepted.Nodup := by
  refine hs.ascending.imp ?_
  rintro a b hlt rfl
  exact Nat.lt_irrefl _ hlt

private theorem Serial.eq_of_settled {h : History job result} (hs : Serial h h.settled)
    {earlier later : List (Nat × job)} {op : Nat × job}
    (hsplit : h.accepted = earlier ++ op :: later) (hbefore : ∀ e ∈ earlier, e ∈ h.settled)
    (hnot : op ∉ h.started) : h.queue.running = none ∧ h.settled = earlier := by
  have hstarted : h.started = h.settled ++ h.queue.running.toList := started_eq hs
  have hline : h.started <+: h.accepted := by
    rw [hstarted]
    exact (List.prefix_append _ _).trans hs.line
  have hnext : earlier ++ [op] <+: h.accepted := ⟨later, by simp [hsplit]⟩
  -- what has started is a beginning of the line that does not reach the operation
  have hshort : h.started <+: earlier := by
    rcases List.prefix_or_prefix_of_prefix hline hnext with hshort | hlong
    · rcases List.prefix_concat_iff.mp hshort with heq | hshort
      · exact absurd (by rw [heq]; simp) hnot
      · exact hshort
    · exact absurd (hlong.subset (by simp)) hnot
  have hdistinct : earlier.Nodup :=
    hs.nodup_accepted.sublist (hsplit ▸ List.sublist_append_left earlier _)
  have hlong : earlier.length ≤ h.settled.length :=
    (hdistinct.subperm fun e he => hbefore e he).length_le
  have hsum : h.started.length = h.settled.length + h.queue.running.toList.length := by
    rw [hstarted, List.length_append]
  have hle := hshort.length_le
  have hnone : h.queue.running.toList = [] := List.eq_nil_of_length_eq_zero (by omega)
  refine ⟨by simpa using hnone, ?_⟩
  rw [← hshort.eq_of_length (by omega), hstarted, hnone, List.append_nil]

theorem started_start {q : OperationQueue (Conduct result) result} {op : Nat × Conduct result}
    (hstart : h.queue.start? = some (op, q)) : (h.take .start).started = h.started ++ [op] := by
  simp only [take, step, hstart, started, List.filterMap_append]
  rfl

private theorem Isolated.started_start (hi : Isolated h) {op : Nat × Conduct result}
    {earlier later : List (Nat × Conduct result)} (hsplit : h.accepted = earlier ++ op :: later)
    (hwhole : ∀ e ∈ earlier, e.2 ≠ .breaksWhenCalled) (hbefore : ∀ e ∈ earlier, e ∈ h.settled)
    (hnot : op ∉ h.started) : (h.take .start).started = h.started ++ [op] := by
  obtain ⟨hrunning, hsettled⟩ := hi.serial.eq_of_settled hsplit hbefore hnot
  have hopen : h.queue.isOpen = true := by
    by_contra hclosed
    obtain ⟨-, -, before, last, -, hlast, hbroke, -⟩ := hi.broken (by simpa using hclosed)
    refine hwhole last ?_ hbroke
    rw [← hsettled, hlast]
    exact List.mem_append_right _ (List.mem_singleton_self last)
  have hwaiting : h.queue.waiting = op :: later := by
    have hline := hi.serial.complete hopen
    rw [hsettled, hrunning, hsplit] at hline
    simpa using hline
  refine History.started_start (q := { h.queue with running := some op, waiting := later }) ?_
  simp only [OperationQueue.start?, hrunning, hwaiting]

/-- Once an operation has broken down when it was called, none of those let in after it starts, and
all of them have been answered. -/
private theorem Isolated.lost (hi : Isolated h) {op : Nat × Conduct result}
    {earlier later : List (Nat × Conduct result)} (hsplit : h.accepted = earlier ++ op :: later)
    (hbroke : op.2 = .breaksWhenCalled) (hop : op ∈ h.settled) {e : Nat × Conduct result}
    (he : e ∈ later) : e ∉ h.started ∧ h.queue.answer? e.1 = some (.error .closed) := by
  have hclosed : h.queue.isOpen = false := by
    by_contra hopen
    exact hi.whole (by simpa using hopen) op hop hbroke
  obtain ⟨hrunning, -, before, last, lost, hsettled, -, hwhole, hline, hanswers⟩ :=
    hi.broken hclosed
  obtain rfl : op = last := by
    rw [hsettled] at hop
    rcases List.mem_append.mp hop with hearly | hlast
    · exact absurd hbroke (hwhole op hearly)
    · exact List.mem_singleton.mp hlast
  have hafter : op.1 < e.1 := by
    have hascending := hi.serial.ascending
    rw [hsplit] at hascending
    exact (List.pairwise_cons.mp (List.pairwise_append.mp hascending).2.1).1 e he
  have hnot : e ∉ h.settled := by
    intro hmem
    have hascending := hi.serial.ascending.sublist hi.serial.line.sublist
    rw [hsettled, List.append_assoc, List.append_assoc] at hascending
    rw [hsettled] at hmem
    rcases List.mem_append.mp hmem with hearly | hlast
    · have hlt := (List.pairwise_append.mp hascending).2.2 e hearly op List.mem_cons_self
      omega
    · rw [List.mem_singleton.mp hlast] at hafter
      exact Nat.lt_irrefl _ hafter
  constructor
  · rw [started_eq hi.serial, hrunning]
    simpa using hnot
  · refine hanswers e ?_
    have hmem : e ∈ h.accepted := hsplit ▸ List.mem_append_right _ (List.mem_cons_of_mem _ he)
    rw [hline] at hmem
    exact (List.mem_append.mp hmem).resolve_left hnot

/-- Operations keep out of each other's way, whatever happens and in whatever order, up to one that
breaks down when it is called. Until then each one starts as soon as those before it have settled,
settles when it comes to its end, and is answered by what it did, with `panicked` if it broke down
while it ran. One that breaks down when it is called is answered by `closed` instead, no operation
after it starts, and all of them are answered by `closed` too. -/
theorem follow_isolated (capacity : Nat) (signals : List (Signal result)) :
    let h : History (Conduct result) result := follow (.ofCapacity capacity) signals
    ∀ earlier op later, h.accepted = earlier ++ op :: later →
      ((∀ e ∈ earlier, e.2 ≠ .breaksWhenCalled) →
        (op ∈ h.settled → op.1 ∈ h.held → h.answer? op.1 = some op.2.answer) ∧
        ((∀ e ∈ earlier, e ∈ h.settled) → op ∉ h.started →
          (h.take .start).started = h.started ++ [op]) ∧
        (op ∈ h.started → op ∉ h.settled → (h.take .proceed).settled = h.settled ++ [op])) ∧
      (op.2 = .breaksWhenCalled → op ∈ h.settled → ∀ e ∈ later, e ∉ h.started ∧
        (e.1 ∈ h.held → h.answer? e.1 = some (.error .closed))) := by
  intro h earlier op later hsplit
  have hi : Isolated h := isolated_follow (isolated_ofCapacity capacity) signals
  have hseen : ∀ ticket ∈ h.held, h.answer? ticket = h.queue.answer? ticket := by
    intro ticket hheld
    rw [answer?, if_pos (by simpa using hheld)]
  refine ⟨fun hwhole => ⟨?_, ?_, ?_⟩, ?_⟩
  · intro hsettled hheld
    rw [hseen _ hheld, hi.answered op hsettled]
  · exact hi.started_start hsplit hwhole
  · intro hstarted hunsettled
    rw [started_eq hi.serial] at hstarted
    have hrunning : h.queue.running = some op := by
      simpa using (List.mem_append.mp hstarted).resolve_left hunsettled
    simp only [take, hrunning]
    rw [settled_close, hrunning]
    rfl
  · intro hbroke hsettled e he
    obtain ⟨hnot, hanswer⟩ := hi.lost hsplit hbroke hsettled he
    exact ⟨hnot, fun hheld => (hseen _ hheld).trans hanswer⟩

/-- An operation that breaks down while it runs is answered by `panicked` and the next one goes on;
one that breaks down when it is called takes the next one with it. -/
theorem follow_isolated_breakdowns :
    let after : Conduct Nat → List (Signal Nat) → History (Conduct Nat) Nat := fun c more =>
      follow (.ofCapacity 2) ([.submit c, .submit (.ends 7), .start, .proceed] ++ more)
    let called := after .breaksWhenCalled []
    let ran := after .breaksWhenRun [.start, .proceed]
    called.accepted = [(0, .breaksWhenCalled), (1, .ends 7)] ∧
    called.answer? 0 = some (.error .closed) ∧
    (1, .ends 7) ∉ called.started ∧ called.answer? 1 = some (.error .closed) ∧
    ran.accepted = [(0, .breaksWhenRun), (1, .ends 7)] ∧
    ran.answer? 0 = some (.error .panicked) ∧ ran.answer? 1 = some (.ok 7) := by
  intro after called ran
  have hcalled : called.accepted = [] ++ (0, .breaksWhenCalled) :: [(1, .ends 7)] := rfl
  have hran : ran.accepted = [] ++ (0, .breaksWhenRun) :: [(1, .ends 7)] := rfl
  have hran' : ran.accepted = [(0, .breaksWhenRun)] ++ (1, .ends 7) :: [] := rfl
  have hcalledLaw := follow_isolated 2
    ([.submit .breaksWhenCalled, .submit (.ends 7), .start, .proceed] : List (Signal Nat))
    _ _ _ hcalled
  have hranLaw := follow_isolated 2 ([.submit .breaksWhenRun, .submit (.ends 7), .start, .proceed,
    .start, .proceed] : List (Signal Nat))
  obtain ⟨hlost, hlostAnswer⟩ := hcalledLaw.2 rfl (by decide) (1, .ends 7) (by decide)
  refine ⟨hcalled, ?_, hlost, hlostAnswer (by decide), hran, ?_, ?_⟩
  · exact (hcalledLaw.1 (by decide)).1 (by decide) (by decide)
  · exact ((hranLaw _ _ _ hran).1 (by decide)).1 (by decide) (by decide)
  · exact ((hranLaw _ _ _ hran').1 (by decide)).1 (by decide) (by decide)

end History

end Queue

end BeaconMesh
