import BeaconMesh.Proofs.Queue.Isolation
import BeaconMesh.Queue.Conduct

/-!
Which operations are let in and what their owners are told. The operations that were let in and
have not started never exceed the capacity; one that is handed in is let in just when the worker is
there and they are below it; and whoever handed in an operation learns what that very operation did,
or that it was not let in, or that the worker has gone before its end.
-/

set_option autoImplicit false
set_option relaxedAutoImplicit false

namespace BeaconMesh

variable {job result : Type}

namespace OperationQueue

theorem admits_eq_true_iff {q : OperationQueue job result} :
    q.admits = true ↔ q.isOpen = true ∧ q.waiting.length < q.capacity := by
  simp [admits]

/-- What the owner of an operation is told if it is not let in. -/
def refusal (q : OperationQueue job result) : QueueFault := if q.isOpen then .full else .closed

theorem submit_refused {q : OperationQueue job result} (h : q.admits = false) (j : job) :
    q.submit j = (q.nextTicket, { q with
      nextTicket := q.nextTicket + 1
      answers := (q.nextTicket, .error q.refusal) :: q.answers }) := by
  cases hopen : q.isOpen with
  | false => simp [submit, hopen, answer, refusal]
  | true =>
    have hroom : ¬ q.waiting.length < q.capacity := by simpa [admits, hopen] using h
    have hfull : q.capacity ≤ q.waiting.length := by omega
    simp [submit, hopen, hfull, answer, refusal]

theorem conclude_keeps (q : OperationQueue job result) (c : Queue.Conduct result) :
    (q.conclude c).capacity = q.capacity ∧ (q.conclude c).nextTicket = q.nextTicket ∧
      (q.conclude c).running = none := by
  have hsettle : ∀ r, (q.settle r).capacity = q.capacity ∧
      (q.settle r).nextTicket = q.nextTicket ∧ (q.settle r).running = none := by
    intro r
    obtain ⟨answers, heq⟩ := q.settle_eq r
    rw [heq]
    exact ⟨rfl, rfl, rfl⟩
  cases c with
  | breaksWhenCalled => exact ⟨rfl, rfl, rfl⟩
  | breaksWhenRun => exact hsettle _
  | ends r => exact hsettle _

theorem answer?_conclude_waiting {q : OperationQueue job result} (hopen : q.isOpen = true)
    {op : Nat × job} (hrunning : q.running = some op) {ticket : Nat} (hne : op.1 ≠ ticket)
    (hwaiting : ticket ∈ q.waiting.map Prod.fst) (c : Queue.Conduct result) :
    (q.conclude c).answer? ticket
      = if (q.conclude c).isOpen then q.answer? ticket else some (.error .closed) := by
  have hsettle : ∀ r, (q.settle r).answer? ticket
      = if (q.settle r).isOpen then q.answer? ticket else some (.error .closed) := by
    intro r
    obtain ⟨answers, heq⟩ := q.settle_eq r
    have hstill : (q.settle r).isOpen = true := by
      rw [heq]
      exact hopen
    rw [answer?_settle hrunning, if_neg hne, if_pos hstill]
  cases c with
  | breaksWhenCalled =>
    rw [conclude, answer?_collapse, if_pos]
    · rfl
    · rw [List.map_append]
      exact List.mem_append_right _ hwaiting
  | breaksWhenRun => exact hsettle _
  | ends r => exact hsettle _

end OperationQueue

namespace Queue

namespace History

variable {h : History job result} {finished : List (Nat × job)}

theorem Serial.pending_subset (hs : Serial h finished) :
    h.queue.running.toList ++ h.queue.waiting ⊆ h.accepted := by
  intro op hop
  apply hs.line.subset
  rw [List.append_assoc]
  exact List.mem_append_right finished hop

theorem Serial.length_accepted (hs : Serial h finished) (hopen : h.queue.isOpen = true) :
    h.accepted.length = h.started.length + h.queue.waiting.length := by
  rw [← hs.complete hopen, started_eq hs, List.length_append]

theorem Serial.pending (hs : Serial h finished) (hopen : h.queue.isOpen = true)
    {op : Nat × job} (hop : op ∈ h.accepted) (hnot : op ∉ finished) :
    op.1 ∈ (h.queue.running.toList ++ h.queue.waiting).map Prod.fst := by
  rw [← hs.complete hopen, List.append_assoc] at hop
  exact List.mem_map_of_mem ((List.mem_append.mp hop).resolve_left hnot)

theorem started_close (h : History job result) (queue : OperationQueue job result) :
    (h.close queue).started = h.started := by
  rw [started, close, List.filterMap_append, started]
  cases h.queue.running <;> exact List.append_nil _

end History

namespace Ledger

open History (Serial Numbered)

variable {capacity : Nat} {past : List (Occurrence result)} {l l' : Ledger result}
  {o : Occurrence result}

private def admitting (l : Ledger result) (c : Conduct result) : Ledger result :=
  { l with history := { l.history with
      queue := { l.history.queue with
        nextTicket := l.history.queue.nextTicket + 1
        waiting := l.history.queue.waiting ++ [(l.history.queue.nextTicket, c)] }
      held := l.history.queue.nextTicket :: l.history.held
      accepted := l.history.accepted ++ [(l.history.queue.nextTicket, c)] } }

private def refusing (l : Ledger result) : Ledger result :=
  { l with history := { l.history with
      queue := { l.history.queue with
        nextTicket := l.history.queue.nextTicket + 1
        answers := (l.history.queue.nextTicket, .error l.history.queue.refusal)
          :: l.history.queue.answers }
      held := l.history.queue.nextTicket :: l.history.held } }

private theorem answer?_refusing (l : Ledger result) (ticket : Nat) :
    l.refusing.history.queue.answer? ticket
      = if l.history.queue.nextTicket = ticket then some (.error l.history.queue.refusal)
        else l.history.queue.answer? ticket :=
  OperationQueue.answer?_cons _ _ _ _

private def starting (l : Ledger result) (op : Nat × Conduct result)
    (rest : List (Nat × Conduct result)) : Ledger result :=
  { l with history := { l.history with
      queue := { l.history.queue with running := some op, waiting := rest }
      moments := l.history.moments ++ [.started op] } }

private inductive Follows (l : Ledger result) : Occurrence result → Ledger result → Prop where
  | admitted (c : Conduct result) (hadmits : l.history.queue.admits = true) :
    Follows l (.usual (.submit c)) (l.admitting c)
  | refused (c : Conduct result) (hadmits : l.history.queue.admits = false) :
    Follows l (.usual (.submit c)) l.refusing
  | dropped (ticket : Nat) :
    Follows l (.usual (.drop ticket)) { l with history := { l.history with
      held := l.history.held.filter fun t => t != ticket } }
  | idle (s : Signal result) (hquiet : s = .start ∨ s = .proceed) : Follows l (.usual s) l
  | started (op : Nat × Conduct result) (rest : List (Nat × Conduct result))
    (hwaiting : l.history.queue.waiting = op :: rest) :
    Follows l (.usual .start) (l.starting op rest)
  | ended (op : Nat × Conduct result) (hrunning : l.history.queue.running = some op) :
    Follows l (.usual .proceed)
      ⟨l.history.close (l.history.queue.conclude op.2), l.ended ++ [op]⟩
  | shutdown : Follows l .shutdown ⟨l.history.close l.history.queue.collapse, l.ended⟩

private theorem follows_step (l : Ledger result) (o : Occurrence result) :
    l.Follows o (l.step o) := by
  cases o with
  | shutdown => exact .shutdown
  | usual s =>
    cases s with
    | submit c =>
      cases hadmits : l.history.queue.admits with
      | true =>
        have heq : l.step (.usual (.submit c)) = l.admitting c := by
          simp only [step, History.take, History.step, hadmits, if_true, admitting,
            OperationQueue.submit_of_admits hadmits]
        exact heq ▸ .admitted c hadmits
      | false =>
        have heq : l.step (.usual (.submit c)) = l.refusing := by
          simp only [step, History.take, History.step, hadmits, Bool.false_eq_true, if_false,
            refusing, OperationQueue.submit_refused hadmits]
        exact heq ▸ .refused c hadmits
    | drop ticket => exact .dropped ticket
    | start =>
      cases hstart : l.history.queue.start? with
      | none =>
        have heq : l.step (.usual .start) = l := by
          simp only [step, History.take, History.step, hstart]
        exact heq.symm ▸ .idle .start (.inl rfl)
      | some next =>
        obtain ⟨op, queue⟩ := next
        obtain ⟨rest, -, hwaiting, rfl⟩ := OperationQueue.start?_eq_some hstart
        have heq : l.step (.usual .start) = l.starting op rest := by
          simp only [step, History.take, History.step, hstart, starting]
        exact heq ▸ .started op rest hwaiting
    | proceed =>
      cases hrunning : l.history.queue.running with
      | none =>
        have heq : l.step (.usual .proceed) = l := by
          simp only [step, History.take, hrunning, Option.toList_none, List.append_nil]
        exact heq.symm ▸ .idle .proceed (.inr rfl)
      | some op =>
        have heq : l.step (.usual .proceed)
            = ⟨l.history.close (l.history.queue.conclude op.2), l.ended ++ [op]⟩ := by
          simp only [step, History.take, hrunning, Option.toList_some]
        exact heq ▸ .ended op hrunning

private theorem step_eq (l : Ledger result) (o : Occurrence result) :
    (l.step o).history = l.history ∧ o.submission? = none ∨
      ∃ event : Event (Conduct result) result, event.job? = o.submission? ∧
        (l.step o).history = l.history.step event := by
  cases o with
  | shutdown => exact .inr ⟨.collapse, rfl, rfl⟩
  | usual s =>
    cases s with
    | submit c => exact .inr ⟨.submit c, rfl, rfl⟩
    | drop ticket => exact .inr ⟨.drop ticket, rfl, rfl⟩
    | start => exact .inr ⟨.start, rfl, rfl⟩
    | proceed =>
      cases hrunning : l.history.queue.running with
      | none => exact .inl ⟨by simp only [step, History.take, hrunning], rfl⟩
      | some op =>
        refine .inr ⟨op.2.event, by cases op.2 <;> rfl, ?_⟩
        simp only [step, History.take, hrunning, History.close_conclude]

private theorem serial_step (hs : Serial l.history l.history.settled) (o : Occurrence result) :
    Serial (l.step o).history (l.step o).history.settled := by
  rcases l.step_eq o with ⟨heq, -⟩ | ⟨event, -, heq⟩
  · rwa [heq]
  · obtain ⟨finished, hfinished⟩ := History.serial_step hs event
    rwa [heq, History.settled_eq hfinished]

private theorem numbered_step
    (hn : Numbered l.history (past.filterMap Occurrence.submission?)) (o : Occurrence result) :
    Numbered (l.step o).history ((past ++ [o]).filterMap Occurrence.submission?) := by
  rw [List.filterMap_append]
  rcases l.step_eq o with ⟨heq, hnone⟩ | ⟨event, hjob, heq⟩
  · have hnothing : [o].filterMap Occurrence.submission? = [] := by simp [hnone]
    rwa [heq, hnothing, List.append_nil]
  · have hnumbered := History.numbered_step hn event
    rw [heq]
    cases ho : o.submission? <;> simpa [ho, hjob] using hnumbered

theorem due_of_mem {op : Nat × Conduct result} (hop : op.1 ∈ l.ended.map Prod.fst) :
    l.due op = some op.2.answer := if_pos hop

theorem due_of_not_mem {op : Nat × Conduct result} (hop : op.1 ∉ l.ended.map Prod.fst) :
    l.due op = if l.history.queue.isOpen then none else some (.error .closed) := if_neg hop

/-- What a ledger tells of the operations that were let in, after all this has happened. -/
structure Accounts (capacity : Nat) (past : List (Occurrence result)) (l : Ledger result) :
    Prop where
  serial : Serial l.history l.history.settled
  numbered : Numbered l.history (past.filterMap Occurrence.submission?)
  room : l.history.queue.capacity = max capacity 1
  bound : l.history.accepted.length ≤ l.history.started.length + max capacity 1
  gone : l.history.queue.isOpen = false →
    l.history.queue.running = none ∧ l.history.queue.waiting = []
  closed : l.history.queue.isOpen = false ↔
    .shutdown ∈ past ∨ ∃ op ∈ l.ended, op.2 = .breaksWhenCalled
  ended : l.ended <+: l.history.settled
  whole : l.history.queue.isOpen = true → l.ended = l.history.settled
  answered : ∀ op ∈ l.history.accepted, l.history.queue.answer? op.1 = l.due op
  fresh : ∀ ticket, l.history.queue.nextTicket ≤ ticket → l.history.queue.answer? ticket = none

theorem accounts_ofCapacity (capacity : Nat) :
    Accounts capacity [] (ofCapacity capacity : Ledger result) where
  serial := History.serial_ofCapacity capacity
  numbered := ⟨rfl, fun _ hop => nomatch hop⟩
  room := rfl
  bound := Nat.zero_le _
  gone := fun _ => ⟨rfl, rfl⟩
  closed := by simp [ofCapacity, History.ofCapacity, OperationQueue.ofCapacity]
  ended := List.nil_prefix
  whole := fun _ => rfl
  answered := fun _ hop => nomatch hop
  fresh := fun _ _ => rfl

namespace Accounts

theorem not_mem_pending (ha : Accounts capacity past l) {op : Nat × Conduct result}
    (hop : op ∈ l.ended) :
    op.1 ∉ (l.history.queue.running.toList ++ l.history.queue.waiting).map Prod.fst :=
  ha.serial.ticket_not_mem (ha.ended.subset hop)

theorem not_pending_of_le (ha : Accounts capacity past l) {ticket : Nat}
    (hticket : l.history.queue.nextTicket ≤ ticket) :
    ticket ∉ (l.history.queue.running.toList ++ l.history.queue.waiting).map Prod.fst := by
  intro hmem
  obtain ⟨e, he, heq⟩ := List.mem_map.mp hmem
  have hissued := ha.serial.issued e (ha.serial.pending_subset he)
  omega

/-- An operation is let in just when the worker is there and those that were let in and have not
started are fewer than the capacity. -/
theorem admits_iff (ha : Accounts capacity past l) :
    l.history.queue.admits = true ↔ l.history.queue.isOpen = true ∧
      l.history.accepted.length < l.history.started.length + max capacity 1 := by
  rw [OperationQueue.admits_eq_true_iff, ha.room]
  constructor
  · rintro ⟨hopen, hroom⟩
    have hlength := ha.serial.length_accepted hopen
    exact ⟨hopen, by omega⟩
  · rintro ⟨hopen, hroom⟩
    have hlength := ha.serial.length_accepted hopen
    exact ⟨hopen, by omega⟩

private theorem quiet (ha : Accounts capacity past l) {s : Signal result}
    (hserial : Serial l'.history l'.history.settled)
    (hnumbered : Numbered l'.history
      ((past ++ [Occurrence.usual s]).filterMap Occurrence.submission?))
    (hended : l'.ended = l.ended)
    (hroom : l'.history.queue.capacity = l.history.queue.capacity)
    (hopen : l'.history.queue.isOpen = l.history.queue.isOpen)
    (hsettled : l'.history.settled = l.history.settled)
    (hgone : l.history.queue.isOpen = false →
      l'.history.queue.running = none ∧ l'.history.queue.waiting = [])
    (hbound : l'.history.accepted.length ≤ l'.history.started.length + max capacity 1)
    (hanswered : ∀ op ∈ l'.history.accepted, l'.history.queue.answer? op.1 = l.due op)
    (hfresh : ∀ ticket, l'.history.queue.nextTicket ≤ ticket →
      l'.history.queue.answer? ticket = none) :
    Accounts capacity (past ++ [.usual s]) l' where
  serial := hserial
  numbered := hnumbered
  room := hroom.trans ha.room
  bound := hbound
  gone := by
    rw [hopen]
    exact hgone
  closed := by
    have hpast : .shutdown ∈ past ++ [Occurrence.usual s] ↔ .shutdown ∈ past := by simp
    rw [hpast, hopen, hended]
    exact ha.closed
  ended := by
    rw [hended, hsettled]
    exact ha.ended
  whole := by
    rw [hopen, hended, hsettled]
    exact ha.whole
  answered := by
    intro op hop
    rw [hanswered op hop]
    simp only [due, hopen, hended]
  fresh := hfresh

private theorem answered_ended (ha : Accounts capacity past l)
    (hopen : l.history.queue.isOpen = true) {op : Nat × Conduct result}
    (hrunning : l.history.queue.running = some op) {e : Nat × Conduct result}
    (he : e ∈ l.history.accepted) :
    (l.history.queue.conclude op.2).answer? e.1
      = due ⟨l.history.close (l.history.queue.conclude op.2), l.ended ++ [op]⟩ e := by
  have hline := ha.serial.complete hopen
  rw [hrunning, ← ha.whole hopen] at hline
  have hplace : e ∈ l.ended ++ [op] ++ l.history.queue.waiting := hline ▸ he
  rcases List.mem_append.mp hplace with hended | hwaits
  · rw [due_of_mem (List.mem_map_of_mem hended)]
    rcases List.mem_append.mp hended with hold | hnew
    · rw [← due_of_mem (List.mem_map_of_mem hold), ← ha.answered e he]
      exact OperationQueue.answer?_conclude_of_not_mem (ha.not_mem_pending hold) op.2
    · rw [List.mem_singleton.mp hnew]
      exact OperationQueue.answer?_conclude_self hrunning op.2
  · have hearlier : ∀ a ∈ l.ended ++ [op], a.1 < e.1 := by
      intro a hmem
      have hascending := ha.serial.ascending
      rw [← hline] at hascending
      exact (List.pairwise_append.mp hascending).2.2 a hmem e hwaits
    have hunended : e.1 ∉ (l.ended ++ [op]).map Prod.fst := by
      intro hmem
      obtain ⟨a, hmem, heq⟩ := List.mem_map.mp hmem
      have hlt := hearlier a hmem
      omega
    have hnone : l.history.queue.answer? e.1 = none := by
      have hold : e.1 ∉ l.ended.map Prod.fst := fun hmem =>
        hunended (by rw [List.map_append]; exact List.mem_append_left _ hmem)
      rw [ha.answered e he, due_of_not_mem hold, hopen, if_pos rfl]
    have hne : op.1 ≠ e.1 := Nat.ne_of_lt (hearlier op (by simp))
    rw [due_of_not_mem hunended, ← hnone]
    exact OperationQueue.answer?_conclude_waiting hopen hrunning hne
      (List.mem_map_of_mem hwaits) op.2

private theorem conclude (ha : Accounts capacity past l) {op : Nat × Conduct result}
    (hrunning : l.history.queue.running = some op)
    (hl : l' = ⟨l.history.close (l.history.queue.conclude op.2), l.ended ++ [op]⟩)
    (hserial : Serial l'.history l'.history.settled)
    (hnumbered : Numbered l'.history
      ((past ++ [Occurrence.usual .proceed]).filterMap Occurrence.submission?)) :
    Accounts capacity (past ++ [.usual .proceed]) l' := by
  have hopen : l.history.queue.isOpen = true := by
    by_contra hdown
    exact nomatch hrunning.symm.trans (ha.gone (by simpa using hdown)).1
  have hwhole : l'.ended = l'.history.settled := by
    rw [hl, History.settled_close, hrunning, ha.whole hopen]
    rfl
  have hdown : (l.history.queue.conclude op.2).isOpen = false ↔ op.2 = .breaksWhenCalled := by
    rw [← Bool.not_eq_true, OperationQueue.isOpen_conclude hopen op.2, not_not]
  have hkeeps := l.history.queue.conclude_keeps op.2
  subst hl
  refine ⟨hserial, hnumbered, hkeeps.1.trans ha.room, ?_, ?_, ?_, hwhole ▸ List.prefix_rfl,
    fun _ => hwhole, fun e he => ha.answered_ended hopen hrunning he, ?_⟩
  · rw [History.started_close]
    exact ha.bound
  · intro hclosed
    have hqueue : l.history.queue.conclude op.2 = l.history.queue.collapse := by
      rw [hdown.mp hclosed]
      rfl
    rw [hqueue]
    exact ⟨rfl, rfl⟩
  · have hpast : .shutdown ∈ past ++ [Occurrence.usual (.proceed : Signal result)]
        ↔ .shutdown ∈ past := by simp
    have hbefore := (not_congr ha.closed).mp (by rw [hopen]; decide)
    rw [hpast]
    refine hdown.trans ⟨fun hbroke => .inr ⟨op, by simp, hbroke⟩, ?_⟩
    rintro (hshut | ⟨e, he, hbroke⟩)
    · exact absurd (.inl hshut) hbefore
    · rcases List.mem_append.mp he with hold | hnew
      · exact absurd (.inr ⟨e, hold, hbroke⟩) hbefore
      · rwa [List.mem_singleton.mp hnew] at hbroke
  · intro ticket hticket
    have hnext : l.history.queue.nextTicket ≤ ticket := hkeeps.2.1 ▸ hticket
    rw [← ha.fresh ticket hnext]
    exact OperationQueue.answer?_conclude_of_not_mem (ha.not_pending_of_le hnext) op.2

private theorem shutdown (ha : Accounts capacity past l)
    (hserial : Serial (l.step .shutdown).history (l.step .shutdown).history.settled)
    (hnumbered : Numbered (l.step .shutdown).history
      ((past ++ [Occurrence.shutdown]).filterMap Occurrence.submission?)) :
    Accounts capacity (past ++ [.shutdown]) (l.step .shutdown) := by
  have hother : ∀ ticket,
      ticket ∉ (l.history.queue.running.toList ++ l.history.queue.waiting).map Prod.fst →
      (l.step .shutdown).history.queue.answer? ticket = l.history.queue.answer? ticket :=
    fun ticket hnot => (OperationQueue.answer?_collapse _ ticket).trans (if_neg hnot)
  have hclose : (l.step .shutdown).history = l.history.close l.history.queue.collapse := rfl
  refine ⟨hserial, hnumbered, ha.room, ?_, fun _ => ⟨rfl, rfl⟩, ?_, ?_,
    (fun hopen => nomatch hopen), ?_, ?_⟩
  · rw [hclose, History.started_close]
    exact ha.bound
  · exact ⟨fun _ => .inl (by simp), fun _ => rfl⟩
  · rw [hclose, History.settled_close]
    exact ha.ended.trans (List.prefix_append _ _)
  · intro e he
    by_cases hended : e.1 ∈ l.ended.map Prod.fst
    · obtain ⟨a, hmem, heq⟩ := List.mem_map.mp hended
      have hdue : (l.step .shutdown).due e = some e.2.answer := due_of_mem hended
      rw [hdue, ← due_of_mem hended, ← ha.answered e he]
      exact hother e.1 (heq ▸ ha.not_mem_pending hmem)
    · have hdue : (l.step .shutdown).due e = some (.error .closed) := due_of_not_mem hended
      rw [hdue]
      by_cases hpending :
          e.1 ∈ (l.history.queue.running.toList ++ l.history.queue.waiting).map Prod.fst
      · exact (OperationQueue.answer?_collapse _ _).trans (if_pos hpending)
      · have hdown : l.history.queue.isOpen = false := by
          by_contra hup
          have hopen : l.history.queue.isOpen = true := by simpa using hup
          apply hpending
          apply ha.serial.pending hopen he
          intro hsettled
          rw [← ha.whole hopen] at hsettled
          exact hended (List.mem_map_of_mem hsettled)
        rw [hother e.1 hpending, ha.answered e he, due_of_not_mem hended, hdown]
        rfl
  · intro ticket hticket
    rw [← ha.fresh ticket hticket]
    exact hother ticket (ha.not_pending_of_le hticket)

theorem step (ha : Accounts capacity past l) (o : Occurrence result) :
    Accounts capacity (past ++ [o]) (l.step o) := by
  have hserial := serial_step ha.serial o
  have hnumbered := numbered_step ha.numbered o
  have hfollows := l.follows_step o
  generalize hl : l.step o = l' at hserial hnumbered hfollows ⊢
  cases hfollows with
  | admitted c hadmits =>
    obtain ⟨hopen, hroom⟩ := ha.admits_iff.mp hadmits
    have hunended : l.history.queue.nextTicket ∉ l.ended.map Prod.fst := by
      intro hmem
      obtain ⟨e, he, heq⟩ := List.mem_map.mp hmem
      have hlt := ha.serial.issued e (ha.serial.mem_accepted (ha.ended.subset he))
      omega
    apply ha.quiet hserial hnumbered rfl rfl rfl rfl
    · exact fun hdown => absurd (hopen.symm.trans hdown) (by decide)
    · show (l.history.accepted ++ [(l.history.queue.nextTicket, c)]).length
        ≤ l.history.started.length + max capacity 1
      rw [List.length_append, List.length_singleton]
      omega
    · intro op hop
      rcases List.mem_append.mp hop with hold | hnew
      · exact ha.answered op hold
      · rw [List.mem_singleton.mp hnew, due_of_not_mem hunended, hopen]
        exact ha.fresh _ (Nat.le_refl _)
    · exact fun ticket hticket => ha.fresh ticket (Nat.le_of_succ_le hticket)
  | refused c hadmits =>
    have hother : ∀ ticket, ticket ≠ l.history.queue.nextTicket →
        l.refusing.history.queue.answer? ticket = l.history.queue.answer? ticket :=
      fun ticket hne => (l.answer?_refusing ticket).trans (if_neg hne.symm)
    apply ha.quiet hserial hnumbered rfl rfl rfl rfl ha.gone ha.bound
    · intro op hop
      have hissued := ha.serial.issued op hop
      exact (hother op.1 (by omega)).trans (ha.answered op hop)
    · intro ticket hticket
      have hnext : l.history.queue.nextTicket + 1 ≤ ticket := hticket
      exact (hother ticket (by omega)).trans (ha.fresh ticket (by omega))
  | dropped ticket =>
    exact ha.quiet hserial hnumbered rfl rfl rfl rfl ha.gone ha.bound ha.answered ha.fresh
  | idle s hquiet =>
    exact ha.quiet hserial hnumbered rfl rfl rfl rfl ha.gone ha.bound ha.answered ha.fresh
  | started op rest hwaiting =>
    apply ha.quiet hserial hnumbered rfl rfl rfl ?_ ?_ ?_ ha.answered ha.fresh
    · show (l.history.moments ++ [Moment.started op]).filterMap Moment.settled? = _
      rw [List.filterMap_append]
      exact List.append_nil _
    · intro hdown
      have hempty := (ha.gone hdown).2
      rw [hwaiting] at hempty
      cases hempty
    · have hbound := ha.bound
      show l.history.accepted.length
        ≤ ((l.history.moments ++ [Moment.started op]).filterMap Moment.started?).length + _
      rw [List.filterMap_append, List.length_append]
      exact Nat.le_trans hbound (Nat.add_le_add_right (Nat.le_add_right _ _) _)
  | ended op hrunning => exact ha.conclude hrunning rfl hserial hnumbered
  | shutdown => exact ha.shutdown hserial hnumbered

theorem run (ha : Accounts capacity past l) (occurrences : List (Occurrence result)) :
    Accounts capacity (past ++ occurrences) (l.run occurrences) := by
  induction occurrences generalizing past l with
  | nil => exact (List.append_nil past).symm ▸ ha
  | cons o occurrences ih =>
    have hrest := ih (ha.step o)
    rwa [List.append_assoc] at hrest

end Accounts

theorem accounts_run (capacity : Nat) (occurrences : List (Occurrence result)) :
    Accounts capacity occurrences (run (ofCapacity capacity) occurrences) :=
  (accounts_ofCapacity capacity).run occurrences

namespace Follows

private theorem accepted (hf : l.Follows o l') :
    ∃ more, l'.history.accepted = l.history.accepted ++ more ∧
      ∀ op ∈ more, op.1 = l.history.queue.nextTicket := by
  cases hf with
  | admitted c _ =>
    refine ⟨[(l.history.queue.nextTicket, c)], rfl, ?_⟩
    intro op hop
    rw [List.mem_singleton.mp hop]
  | _ => exact ⟨[], (List.append_nil _).symm, fun _ hop => nomatch hop⟩

private theorem held (hf : l.Follows o l') {ticket : Nat} (hheld : ticket ∈ l.history.held)
    (hkept : o ≠ .usual (.drop ticket)) : ticket ∈ l'.history.held := by
  cases hf with
  | admitted c _ => exact List.mem_cons_of_mem _ hheld
  | refused c _ => exact List.mem_cons_of_mem _ hheld
  | dropped other =>
    have hne : ticket ≠ other := by
      rintro rfl
      exact hkept rfl
    exact List.mem_filter.mpr ⟨hheld, by simpa using hne⟩
  | idle s _ => exact hheld
  | started op rest _ => exact hheld
  | ended op _ => exact hheld
  | shutdown => exact hheld

private theorem submitted {c : Conduct result} (hf : l.Follows (.usual (.submit c)) l') :
    (l.history.queue.admits = true ∧ l' = l.admitting c) ∨
      (l.history.queue.admits = false ∧ l' = l.refusing) := by
  cases hf with
  | admitted _ hadmits => exact .inl ⟨hadmits, rfl⟩
  | refused _ hadmits => exact .inr ⟨hadmits, rfl⟩
  | idle _ hquiet => exact hquiet.elim (fun h => nomatch h) (fun h => nomatch h)

end Follows

/-- The ticket of an operation that was handed in and not let in. -/
def TurnedAway (l : Ledger result) (ticket : Nat) : Prop :=
  ticket < l.history.queue.nextTicket ∧ ticket ∉ l.history.accepted.map Prod.fst

namespace Accounts

theorem turnedAway_step (ha : Accounts capacity past l) {ticket : Nat}
    (hticket : l.TurnedAway ticket) (o : Occurrence result) :
    (l.step o).TurnedAway ticket ∧
      (l.step o).history.queue.answer? ticket = l.history.queue.answer? ticket := by
  obtain ⟨hissued, hnot⟩ := hticket
  have hfollows := l.follows_step o
  have hpending :
      ticket ∉ (l.history.queue.running.toList ++ l.history.queue.waiting).map Prod.fst :=
    fun hmem => hnot (List.map_subset _ ha.serial.pending_subset hmem)
  refine ⟨⟨?_, ?_⟩, ?_⟩
  · have hbefore := ha.numbered.next
    have hafter := (ha.step o).numbered.next
    rw [List.filterMap_append, List.length_append] at hafter
    omega
  · obtain ⟨more, heq, hnew⟩ := hfollows.accepted
    rw [heq, List.map_append, List.mem_append, not_or]
    refine ⟨hnot, fun hmem => ?_⟩
    obtain ⟨op, hop, hsame⟩ := List.mem_map.mp hmem
    have hnext := hnew op hop
    omega
  · generalize l.step o = l' at hfollows
    cases hfollows with
    | admitted c _ => rfl
    | refused c _ =>
      have hne : l.history.queue.nextTicket ≠ ticket := by omega
      exact (l.answer?_refusing ticket).trans (if_neg hne)
    | dropped other => rfl
    | idle s _ => rfl
    | started op rest _ => rfl
    | ended op _ => exact OperationQueue.answer?_conclude_of_not_mem hpending op.2
    | shutdown => exact (OperationQueue.answer?_collapse _ _).trans (if_neg hpending)

theorem turnedAway_run (ha : Accounts capacity past l) {ticket : Nat}
    (hticket : l.TurnedAway ticket) (occurrences : List (Occurrence result)) :
    (l.run occurrences).TurnedAway ticket ∧
      (l.run occurrences).history.queue.answer? ticket = l.history.queue.answer? ticket := by
  induction occurrences generalizing past l with
  | nil => exact ⟨hticket, rfl⟩
  | cons o occurrences ih =>
    obtain ⟨hstill, hsame⟩ := ha.turnedAway_step hticket o
    obtain ⟨hend, hrest⟩ := ih (ha.step o) hstill
    exact ⟨hend, hrest.trans hsame⟩

end Accounts

theorem mem_accepted_run {op : Nat × Conduct result} (hop : op ∈ l.history.accepted)
    (occurrences : List (Occurrence result)) : op ∈ (l.run occurrences).history.accepted := by
  induction occurrences generalizing l with
  | nil => exact hop
  | cons o occurrences ih =>
    obtain ⟨more, heq, -⟩ := (l.follows_step o).accepted
    exact ih (heq ▸ List.mem_append_left more hop)

theorem mem_held_run {ticket : Nat} (hheld : ticket ∈ l.history.held)
    {occurrences : List (Occurrence result)} (hkept : .usual (.drop ticket) ∉ occurrences) :
    ticket ∈ (l.run occurrences).history.held := by
  induction occurrences generalizing l with
  | nil => exact hheld
  | cons o occurrences ih =>
    rw [List.mem_cons, not_or] at hkept
    exact ih ((l.follows_step o).held hheld (Ne.symm hkept.1)) hkept.2

theorem answer?_run {ticket : Nat} (hheld : ticket ∈ l.history.held)
    {occurrences : List (Occurrence result)} (hkept : .usual (.drop ticket) ∉ occurrences) :
    (l.run occurrences).history.answer? ticket
      = (l.run occurrences).history.queue.answer? ticket := by
  have hstill := mem_held_run hheld hkept
  rw [History.answer?, if_pos (by simpa using hstill)]

theorem run_append (l : Ledger result) (before after : List (Occurrence result)) :
    l.run (before ++ after) = (l.run before).run after := List.foldl_append

namespace Accounts

theorem admitted_answered (ha : Accounts capacity past l) (c : Conduct result)
    (after : List (Occurrence result)) (hadmits : l.history.queue.admits = true) :
    let op : Nat × Conduct result := (l.history.queue.nextTicket, c)
    let l' : Ledger result := (l.step (.usual (.submit c))).run after
    op ∈ l'.history.accepted ∧
      (.usual (.drop op.1) ∉ after → l'.history.answer? op.1 = l'.due op) := by
  intro op l'
  have hstep : l.step (.usual (.submit c)) = l.admitting c := by
    rcases (l.follows_step (.usual (.submit c))).submitted with ⟨-, heq⟩ | ⟨hno, -⟩
    · exact heq
    · rw [hadmits] at hno
      cases hno
  have hend : Accounts capacity ((past ++ [.usual (.submit c)]) ++ after) l' :=
    (ha.step (.usual (.submit c))).run after
  have hop : op ∈ l'.history.accepted := by
    apply mem_accepted_run
    rw [hstep]
    exact List.mem_append_right _ (List.mem_singleton_self op)
  have hheld : op.1 ∈ (l.step (.usual (.submit c))).history.held := by
    rw [hstep]
    exact List.mem_cons_self
  exact ⟨hop, fun hkept => (answer?_run hheld hkept).trans (hend.answered op hop)⟩

theorem refused_answered (ha : Accounts capacity past l) (c : Conduct result)
    (after : List (Occurrence result)) (hadmits : l.history.queue.admits = false) :
    let ticket : Nat := l.history.queue.nextTicket
    let l' : Ledger result := (l.step (.usual (.submit c))).run after
    ticket ∉ l'.history.accepted.map Prod.fst ∧
      (.usual (.drop ticket) ∉ after → l'.history.answer? ticket =
        some (.error (if l.history.queue.isOpen then .full else .closed))) := by
  intro ticket l'
  have hstep : l.step (.usual (.submit c)) = l.refusing := by
    rcases (l.follows_step (.usual (.submit c))).submitted with ⟨hyes, -⟩ | ⟨-, heq⟩
    · rw [hadmits] at hyes
      cases hyes
    · exact heq
  have haway : (l.step (.usual (.submit c))).TurnedAway ticket := by
    rw [hstep]
    refine ⟨Nat.lt_succ_self _, fun hmem => ?_⟩
    obtain ⟨e, he, hsame⟩ := List.mem_map.mp hmem
    have hissued := ha.serial.issued e he
    omega
  obtain ⟨⟨-, hnot⟩, hsame⟩ := (ha.step (.usual (.submit c))).turnedAway_run haway after
  refine ⟨hnot, fun hkept => ?_⟩
  have hheld : ticket ∈ (l.step (.usual (.submit c))).history.held := by
    rw [hstep]
    exact List.mem_cons_self
  rw [answer?_run hheld hkept, hsame, hstep, l.answer?_refusing, if_pos rfl]
  rfl

end Accounts

/-- Whatever happens to a queue, in whatever order. The operations that were let in and have not
started never exceed the capacity, or one if that is none. The worker is gone just when it was taken
away or an operation took it down. An operation that is handed in is let in just when the worker is
there and those that were let in and have not started are below the capacity; otherwise it never
starts, and its owner is told that the queue is full, or closed if the worker is gone. The owner of
one that was let in is told what it did once it has come to its end, that the queue is closed if the
worker has gone before, and nothing until then. -/
theorem admits_and_answers (capacity : Nat) (occurrences : List (Occurrence result)) :
    let l : Ledger result := run (ofCapacity capacity) occurrences
    l.history.started <+: l.history.accepted ∧
    l.history.accepted.length ≤ l.history.started.length + max capacity 1 ∧
    (l.history.queue.isOpen = false ↔
      .shutdown ∈ occurrences ∨ ∃ op ∈ l.ended, op.2 = .breaksWhenCalled) ∧
    ∀ before c after, occurrences = before ++ .usual (.submit c) :: after →
      let earlier : History (Conduct result) result := (run (ofCapacity capacity) before).history
      let letIn : Prop := earlier.queue.isOpen = true ∧
        earlier.accepted.length < earlier.started.length + max capacity 1
      let op : Nat × Conduct result := ((before.filterMap Occurrence.submission?).length, c)
      (letIn → op ∈ l.history.accepted ∧
        (.usual (.drop op.1) ∉ after → l.history.answer? op.1 =
          if op.1 ∈ l.ended.map Prod.fst then some c.answer
          else if l.history.queue.isOpen then none else some (.error .closed))) ∧
      (¬ letIn → op.1 ∉ l.history.accepted.map Prod.fst ∧ op.1 ∉ l.history.started.map Prod.fst ∧
        (.usual (.drop op.1) ∉ after → l.history.answer? op.1 =
          some (.error (if earlier.queue.isOpen then .full else .closed)))) := by
  intro l
  have ha : Accounts capacity occurrences l := accounts_run capacity occurrences
  have hbeginning : l.history.started <+: l.history.accepted := by
    rw [History.started_eq ha.serial]
    exact (List.prefix_append _ _).trans ha.serial.line
  refine ⟨hbeginning, ha.bound, ha.closed, ?_⟩
  rintro before c after rfl earlier letIn op
  let first : Ledger result := run (ofCapacity capacity) before
  have hfirst : Accounts capacity before first := accounts_run capacity before
  have hticket : first.history.queue.nextTicket = op.1 := hfirst.numbered.next
  have hl : l = (first.step (.usual (.submit c))).run after := run_append _ before (_ :: after)
  have hadmits : earlier.queue.admits = true ↔ letIn := hfirst.admits_iff
  constructor
  · intro hin
    have hcome := hfirst.admitted_answered c after (hadmits.mpr hin)
    rw [← hl, hticket] at hcome
    exact hcome
  · intro hout
    have hrefused : earlier.queue.admits = false :=
      Bool.eq_false_iff.mpr fun hyes => hout (hadmits.mp hyes)
    obtain ⟨hnot, hanswer⟩ := hfirst.refused_answered c after hrefused
    rw [← hl, hticket] at hnot hanswer
    exact ⟨hnot, fun hmem => hnot (List.map_subset _ hbeginning.subset hmem), hanswer⟩

-- The second operation finds the queue full; the third does not count the one that runs.
example :
    let l : Ledger Nat := run (ofCapacity 1) [.usual (.submit (.ends 7)),
      .usual (.submit (.ends 8)), .usual .start, .usual (.submit .breaksWhenRun), .usual .proceed,
      .usual .start, .usual .proceed, .usual (.submit (.ends 9)), .shutdown,
      .usual (.submit (.ends 10))]
    (List.range 5).map l.history.answer? = [some (.ok 7), some (.error .full),
      some (.error .panicked), some (.error .closed), some (.error .closed)] := by
  rfl

end Ledger

end Queue

end BeaconMesh
