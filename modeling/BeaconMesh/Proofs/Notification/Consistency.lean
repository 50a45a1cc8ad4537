import BeaconMesh.Proofs.Notification.PresharedKey
import BeaconMesh.Proofs.Notification.Serving

/-!
What is so of a server whenever no operation is under way, whatever the transport has refused: it
hands out beacons only while it runs on a transport that serves, it knows the secrets of just those
for whom they were made, and its calls to the transport come in order.
-/

set_option autoImplicit false
set_option relaxedAutoImplicit false

namespace BeaconMesh.Notification.Server

open Beacon

/-- A call to the transport, and how the transport has answered it. -/
abbrev Answered := TransportCall × Except String Unit

def served : Answered := (.start, .ok ())

def Turn.answered (t : Turn) : List Answered :=
  t.calls.map fun call => (call, t.operation.answer call)

/-- All calls of a server's turns, the earliest first. -/
def callLog (turns : List Turn) : List Answered := turns.reverse.flatMap Turn.answered

/-- The transport is asked to serve until it does and never again, and only then is it asked to
advertise anew. -/
structure InOrder (log : List Answered) : Prop where
  once : ∀ before answer after, log = before ++ (.start, answer) :: after → served ∉ before
  refreshed : ∀ before answer after, log = before ++ (.refresh, answer) :: after → served ∈ before

def Operation.recipients (o : Operation) : List PublicKey :=
  match o.command with
  | .start recipients => recipients
  | .startFromBytes recipients => (keysOf recipients).toOption.getD []
  | .stop => []

/-- Those for whom the latest turn that replaced what is handed out has made beacons. -/
def recipientsOf (turns : List Turn) : List PublicKey :=
  match turns.find? Turn.replaces with
  | none => []
  | some t => t.operation.recipients

variable {keys : KeyPair} {ttl : Duration} {h : History} {o : Operation} {log : List Answered}

theorem append_singleton_eq_append_cons {α : Type} {earlier before after : List α} {last x : α}
    (h : earlier ++ [last] = before ++ x :: after) :
    before = earlier ∧ x = last ∨ ∃ rest, earlier = before ++ x :: rest := by
  rcases List.append_eq_append_iff.mp h with ⟨more, hbefore, hlast⟩ | ⟨rest, hearlier, hafter⟩
  · rcases more with _ | ⟨first, more⟩
    · simp only [List.nil_append, List.cons.injEq] at hlast
      exact .inl ⟨by rw [hbefore, List.append_nil], hlast.1.symm⟩
    · simp at hlast
  · rcases rest with _ | ⟨first, rest⟩
    · simp only [List.nil_append, List.cons.injEq] at hafter
      exact .inl ⟨by rw [hearlier, List.append_nil], hafter.1⟩
    · simp only [List.cons_append, List.cons.injEq] at hafter
      exact .inr ⟨rest, by rw [hearlier, hafter.1]⟩

theorem InOrder.concat (hlog : InOrder log) {entry : Answered}
    (hstart : entry.1 = .start → served ∉ log) (hrefresh : entry.1 = .refresh → served ∈ log) :
    InOrder (log ++ [entry]) where
  once := by
    intro before answer after hsplit
    rcases append_singleton_eq_append_cons hsplit with ⟨rfl, rfl⟩ | ⟨rest, hrest⟩
    · exact hstart rfl
    · exact hlog.once before answer rest hrest
  refreshed := by
    intro before answer after hsplit
    rcases append_singleton_eq_append_cons hsplit with ⟨rfl, rfl⟩ | ⟨rest, hrest⟩
    · exact hrefresh rfl
    · exact hlog.refreshed before answer rest hrest

theorem inOrder_nil : InOrder [] where
  once := by
    intro before answer after hsplit
    simp at hsplit
  refreshed := by
    intro before answer after hsplit
    simp at hsplit

theorem callLog_cons (t : Turn) (turns : List Turn) :
    callLog (t :: turns) = callLog turns ++ t.answered := by
  simp [callLog]

theorem callLog_step (h : History) (o : Operation) :
    callLog (h.step o).turns = callLog h.turns ++ (h.server.carryOut o).1.answered :=
  callLog_cons _ h.turns

theorem recipientsOf_cons (t : Turn) (turns : List Turn) : recipientsOf (t :: turns)
    = if t.replaces = true then t.operation.recipients else recipientsOf turns := by
  unfold recipientsOf
  rw [List.find?_cons]
  cases t.replaces with
  | true => rfl
  | false => rfl

theorem recipients_stop (hstop : o.isStop = true) : o.recipients = [] := by
  unfold Operation.isStop at hstop
  unfold Operation.recipients
  split at hstop
  · rename_i hcommand
    rw [hcommand]
  · cases hstop

private theorem recipients_of_offerTo {now : Instant} {e : Entropy} {recipients : List PublicKey}
    {next : Published} (hoffer : offerTo keys ttl now e recipients = .ok next) :
    next.addressed.map Addressed.recipient = recipients ∧
      (next.set.isSome = true ↔ recipients ≠ []) := by
  unfold offerTo at hoffer
  split at hoffer
  · rename_i hempty
    have hnone : recipients = [] := List.isEmpty_iff.mp hempty
    cases hoffer
    rw [hnone]
    exact ⟨rfl, by simp [Published.nothing]⟩
  · rename_i hsome
    split at hoffer
    · cases hoffer
    · rename_i set hmade
      cases hoffer
      have hrecipients : set.secrets.map Addressed.recipient = recipients :=
        map_recipient_secrets hmade
      exact ⟨hrecipients, by simpa using hsome⟩

theorem recipients_of_offer {next : Published} (hoffer : o.offer keys ttl = .ok next) :
    next.addressed.map Addressed.recipient = o.recipients ∧
      (next.set.isSome = true ↔ o.recipients ≠ []) := by
  unfold Operation.offer at hoffer
  unfold Operation.recipients
  cases hcommand : o.command with
  | start recipients =>
    rw [hcommand] at hoffer
    exact recipients_of_offerTo hoffer
  | startFromBytes recipients =>
    simp only [hcommand] at hoffer ⊢
    cases hkeys : keysOf recipients with
    | error fault =>
      rw [hkeys] at hoffer
      cases hoffer
    | ok keys =>
      rw [hkeys] at hoffer
      exact recipients_of_offerTo hoffer
  | stop =>
    rw [hcommand] at hoffer
    cases hoffer
    exact ⟨rfl, by simp [Published.nothing]⟩

theorem resolve_isSome_iff (p : Published) {identity : String}
    (hother : identity ≠ beaconIdentity) :
    (p.resolve identity).isSome = true ↔
      ∃ key ∈ p.addressed.map Addressed.recipient, key.hash.toHex = identity := by
  rw [Published.resolve, if_neg hother, Option.isSome_map, List.find?_isSome]
  constructor
  · rintro ⟨a, ha, htext⟩
    have hmem : a ∈ p.addressed := List.mem_reverse.mp ha
    exact ⟨a.recipient, List.mem_map_of_mem hmem, by simpa using htext⟩
  · rintro ⟨key, hkey, htext⟩
    obtain ⟨a, ha, rfl⟩ := List.mem_map.mp hkey
    exact ⟨a, List.mem_reverse.mpr ha, by simpa using htext⟩

/-- What is so of a server and its past whenever no operation is under way. -/
structure Consistent (keys : KeyPair) (ttl : Duration) (h : History) : Prop where
  sameKeys : h.server.keys = keys
  sameTtl : h.server.ttl = ttl
  serving : h.server.serving = true ↔ served ∈ callLog h.turns
  running : h.server.published.set.isSome = true →
    h.server.phase = .running ∧ h.server.serving = true
  recipients : h.server.published.addressed.map Addressed.recipient = recipientsOf h.turns
  handing : h.server.published.set.isSome = true ↔ recipientsOf h.turns ≠ []
  inOrder : InOrder (callLog h.turns)

theorem Consistent.not_served (hc : Consistent keys ttl h) (hserving : h.server.serving = false) :
    served ∉ callLog h.turns := by
  intro hserved
  have hserves : h.server.serving = true := hc.serving.mpr hserved
  exact Bool.noConfusion (hserving.symm.trans hserves)

theorem served_mem_published {s : Server} {next : Published} {result : Except Fault Unit}
    (hserves : s.serving = true ∨ o.answer .start = .ok ())
    (hlog : s.serving = true → served ∈ log) :
    served ∈ log ++ (Turn.mk o (s.callsFor next) result).answered := by
  cases hserving : s.serving with
  | true => exact List.mem_append_left _ (hlog hserving)
  | false =>
    have hanswer : o.answer .start = .ok () := by simpa [hserving] using hserves
    refine List.mem_append_right _ (List.mem_map.mpr ⟨.start, ?_, ?_⟩)
    · simp [callsFor, hserving]
    · rw [hanswer]
      rfl

theorem inOrder_published (hc : Consistent keys ttl h) {next : Published}
    {result : Except Fault Unit} (hserves : h.server.serving = true ∨ o.answer .start = .ok ()) :
    InOrder (callLog h.turns ++ (Turn.mk o (h.server.callsFor next) result).answered) := by
  have hrefresh : ∀ log, InOrder log → served ∈ log → InOrder (log ++
      (if h.server.published.set.isSome || next.set.isSome then [.refresh] else []).map
        fun call => (call, o.answer call)) := by
    intro log hlog hserved
    split
    · exact hlog.concat (fun hstart => nomatch hstart) fun _ => hserved
    · rw [List.map_nil, List.append_nil]
      exact hlog
  unfold Turn.answered callsFor
  simp only
  cases hserving : h.server.serving with
  | true =>
    rw [if_pos rfl, List.nil_append]
    exact hrefresh (callLog h.turns) hc.inOrder (hc.serving.mp hserving)
  | false =>
    have hanswer : o.answer .start = .ok () := by simpa [hserving] using hserves
    rw [if_neg Bool.false_ne_true, List.map_append, List.map_singleton, hanswer,
      ← List.append_assoc]
    refine hrefresh (callLog h.turns ++ [served]) ?_ (List.mem_append_right _ List.mem_cons_self)
    exact hc.inOrder.concat (fun _ => hc.not_served hserving) fun hrefresh => nomatch hrefresh

theorem consistent_step (hc : Consistent keys ttl h) (o : Operation) :
    Consistent keys ttl (h.step o) := by
  have hends := ends_carryOut h.server o
  have hlog : ∀ t : Turn, callLog (t :: h.turns) = callLog h.turns ++ t.answered :=
    fun t => callLog_cons t h.turns
  show Consistent keys ttl ⟨(h.server.carryOut o).2, (h.server.carryOut o).1 :: h.turns⟩
  generalize h.server.carryOut o = ended at hends
  cases hends with
  | stopped hstop =>
    have hreplaces : (Turn.mk o [.stop] ((o.answer .stop).mapError .stop)).replaces = true := by
      simp [Turn.replaces, Turn.succeeded, hstop]
    have hnobody :
        recipientsOf (⟨o, [.stop], (o.answer .stop).mapError .stop⟩ :: h.turns) = [] := by
      rw [recipientsOf_cons, if_pos hreplaces, recipients_stop hstop]
    refine ⟨hc.sameKeys, hc.sameTtl, ?_, ?_, hnobody.symm, ?_, ?_⟩
    · rw [hlog]
      simpa [Turn.answered, served] using hc.serving
    · intro hsome
      cases hsome
    · simp [hnobody, Published.nothing]
    · rw [hlog]
      refine hc.inOrder.concat ?_ ?_
      · intro hstart
        cases hstart
      · intro hrefresh
        cases hrefresh
  | @refused hstart fault hoffer =>
    have hreplaces : ¬ (Turn.mk o [] (.error fault)).replaces = true := by
      simp [Turn.replaces, Turn.succeeded, hstart, Except.isOk, Except.toBool]
    have hsame : recipientsOf (⟨o, [], .error fault⟩ :: h.turns) = recipientsOf h.turns := by
      rw [recipientsOf_cons, if_neg hreplaces]
    have hquiet : callLog (⟨o, [], .error fault⟩ :: h.turns) = callLog h.turns := by
      rw [hlog]
      exact List.append_nil _
    exact ⟨hc.sameKeys, hc.sameTtl, hquiet ▸ hc.serving, hc.running, hsame ▸ hc.recipients,
      hsame ▸ hc.handing, hquiet ▸ hc.inOrder⟩
  | @unserved hstart hserving cause hanswer next hoffer =>
    have hreplaces : ¬ (Turn.mk o [.start] (.error (.advertising cause))).replaces = true := by
      simp [Turn.replaces, Turn.succeeded, hstart, Except.isOk, Except.toBool]
    have hsame : recipientsOf (⟨o, [.start], .error (.advertising cause)⟩ :: h.turns)
        = recipientsOf h.turns := by
      rw [recipientsOf_cons, if_neg hreplaces]
    have hnothing : ¬ h.server.published.set.isSome = true := by
      intro hsome
      exact Bool.noConfusion (hserving.symm.trans (hc.running hsome).2)
    refine ⟨hc.sameKeys, hc.sameTtl, ?_, fun hsome => absurd hsome hnothing, hsame ▸ hc.recipients,
      hsame ▸ hc.handing, ?_⟩
    · rw [hlog]
      simpa [Turn.answered, served, hanswer] using hc.serving
    · rw [hlog]
      refine hc.inOrder.concat (fun _ => hc.not_served hserving) ?_
      intro hrefresh
      cases hrefresh
  | @published hstart next hoffer hserves =>
    rw [hc.sameKeys, hc.sameTtl] at hoffer
    obtain ⟨hrecipients, hsome⟩ := recipients_of_offer hoffer
    have hnow : recipientsOf (⟨o, h.server.callsFor next, h.server.announcement o next⟩ :: h.turns)
        = o.recipients := by
      rw [recipientsOf_cons, if_pos (replaces_published next)]
    have hserved : served ∈ callLog h.turns
        ++ (Turn.mk o (h.server.callsFor next) (h.server.announcement o next)).answered :=
      served_mem_published hserves hc.serving.mp
    refine ⟨hc.sameKeys, hc.sameTtl, ?_, fun _ => ⟨rfl, rfl⟩, hrecipients.trans hnow.symm,
      hnow.symm ▸ hsome, ?_⟩
    · rw [hlog]
      exact ⟨fun _ => hserved, fun _ => rfl⟩
    · rw [hlog]
      exact inOrder_published hc hserves

theorem consistent_fresh (keys : KeyPair) (ttl : Duration) :
    Consistent keys ttl (.fresh keys ttl) where
  sameKeys := rfl
  sameTtl := rfl
  serving := by simp [callLog, History.fresh, fresh]
  running := fun hsome => nomatch hsome
  recipients := rfl
  handing := by simp [History.fresh, fresh, Published.nothing, recipientsOf]
  inOrder := inOrder_nil

theorem consistent_run (hc : Consistent keys ttl h) (operations : List Operation) :
    Consistent keys ttl (h.run operations) := by
  induction operations generalizing h with
  | nil => exact hc
  | cons o operations ih => exact ih (consistent_step hc o)

theorem start_mem_callsFor (s : Server) (next : Published) :
    .start ∈ s.callsFor next ↔ s.serving = false := by
  unfold callsFor
  generalize (s.published.set.isSome || next.set.isSome) = advertises
  cases s.serving <;> cases advertises <;> decide

theorem count_refresh_callsFor (s : Server) (next : Published) : (s.callsFor next).count .refresh
    = if s.published.set.isSome || next.set.isSome then 1 else 0 := by
  unfold callsFor
  generalize (s.published.set.isSome || next.set.isSome) = advertises
  cases s.serving <;> cases advertises <;> decide

/-- What an operation asks of the transport and what it changes. A start asks the transport to
serve unless it does already; once it serves, what the start has made is handed out, and that is
advertised unless nothing was and nothing is handed out. -/
theorem Consistent.turn (hc : Consistent keys ttl h) (o : Operation) :
    let calls := (h.server.carryOut o).1.calls
    let before := h.server.published
    let after := (h.step o).server.published
    (.start ∈ calls ↔
      o.isStop = false ∧ (o.offer keys ttl).isOk = true ∧ served ∉ callLog h.turns) ∧
    (o.isStop = true → calls = [.stop] ∧ after = .nothing) ∧
    (o.isStop = false →
      (∃ next, o.offer keys ttl = .ok next ∧ served ∈ callLog (h.step o).turns ∧ after = next ∧
        calls.count .refresh = if before.set.isSome || after.set.isSome then 1 else 0) ∨
      ((o.offer keys ttl).isOk = false ∨ served ∉ callLog (h.step o).turns) ∧
        after = before ∧ .refresh ∉ calls) := by
  have hnext : Consistent keys ttl (h.step o) := consistent_step hc o
  have hends := ends_carryOut h.server o
  have hasked : served ∉ callLog h.turns ↔ h.server.serving = false := by
    rw [← hc.serving, Bool.not_eq_true]
  have hserves : served ∈ callLog (h.step o).turns ↔ (h.server.carryOut o).2.serving = true :=
    hnext.serving.symm
  have hstep : (h.step o).server = (h.server.carryOut o).2 := rfl
  simp only [hasked, hserves, hstep, ← hc.sameKeys, ← hc.sameTtl]
  generalize h.server.carryOut o = ended at hends
  cases hends with
  | stopped hstop => simp [hstop]
  | refused hstart hoffer => simp [hstart, hoffer, Except.isOk, Except.toBool]
  | unserved hstart hserving hanswer hoffer =>
    simp [hstart, hoffer, hserving, Except.isOk, Except.toBool]
  | published hstart hoffer hserves =>
    simp [hstart, hoffer, start_mem_callsFor, count_refresh_callsFor, Except.isOk, Except.toBool]

/-- After any operations, whatever the transport refused: beacons are handed out only while the
server runs on a transport that has begun to serve. There are secrets just when beacons are handed
out, for those for whom the beacons in force were made; apart from them only the identity under
which beacons are fetched stands for anything, always for the same secret, and no key has this
identity. The transport is asked to serve until it does and never again, and to advertise anew only
after that: once by each start that publishes, unless nothing was and nothing is handed out. -/
theorem consistent_between (keys : KeyPair) (ttl : Duration) (operations : List Operation) :
    let h := (History.fresh keys ttl).run operations
    let p := h.server.published
    (p.blob.isSome = true → h.server.phase = .running ∧ served ∈ callLog h.turns) ∧
    (p.addressed ≠ [] ↔ p.blob.isSome = true) ∧
    (∀ identity, identity ≠ beaconIdentity → ((p.resolve identity).isSome = true ↔
      ∃ key ∈ recipientsOf h.turns, key.hash.toHex = identity)) ∧
    p.resolve beaconIdentity = some ⟨beaconIdentitySecret, none⟩ ∧
    (∀ hash : KeyHash, hash.toHex ≠ beaconIdentity) ∧
    InOrder (callLog h.turns) ∧
    ∀ o : Operation,
      let calls := (h.server.carryOut o).1.calls
      let after := (h.step o).server.published
      (.start ∈ calls ↔
        o.isStop = false ∧ (o.offer keys ttl).isOk = true ∧ served ∉ callLog h.turns) ∧
      (o.isStop = true → calls = [.stop] ∧ after = .nothing) ∧
      (o.isStop = false →
        (∃ next, o.offer keys ttl = .ok next ∧ served ∈ callLog (h.step o).turns ∧ after = next ∧
          calls.count .refresh = if p.set.isSome || after.set.isSome then 1 else 0) ∨
        ((o.offer keys ttl).isOk = false ∨ served ∉ callLog (h.step o).turns) ∧
          after = p ∧ .refresh ∉ calls) := by
  intro h p
  have hc : Consistent keys ttl h := consistent_run (consistent_fresh keys ttl) operations
  have hblob : p.blob.isSome = p.set.isSome := Option.isSome_map
  refine ⟨?_, ?_, ?_, if_pos rfl, toHex_ne_beaconIdentity, hc.inOrder, hc.turn⟩
  · rw [hblob]
    intro hsome
    obtain ⟨hrunning, hserving⟩ := hc.running hsome
    exact ⟨hrunning, hc.serving.mp hserving⟩
  · rw [hblob, hc.handing, ← hc.recipients]
    simp [p]
  · intro identity hother
    rw [resolve_isSome_iff p hother, hc.recipients]

/-- A start that the transport did not advertise has handed out its beacons; the next start does
not ask the transport to serve again, and asks it once to advertise. -/
theorem consistent_between_refused :
    let h := (History.fresh (repeating 1) (.ofSecs 60)).run [startFor refusingRefresh]
    let again := startFor fun _ => .ok ()
    h.server.published.blob.isSome = true ∧ h.server.phase = .running ∧
    callLog h.turns = [served, (.refresh, .error "radio off")] ∧
    (∀ identity, identity ≠ beaconIdentity → ((h.server.published.resolve identity).isSome = true ↔
      ∃ key ∈ askedTwice, key.hash.toHex = identity)) ∧
    again.isStop = false ∧ .start ∉ (h.server.carryOut again).1.calls ∧
    (h.server.carryOut again).1.calls.count .refresh = 1 := by
  obtain ⟨set, hmade⟩ := generate_askedTwice
  revert hmade
  generalize repeating 1 = keys
  intro hmade h again
  have hrun : h = _ := run_startFor hmade refusingRefresh rfl
  have hblob : h.server.published.blob.isSome = true := by
    rw [hrun]
    rfl
  have hlog : callLog h.turns = [served, (.refresh, .error "radio off")] := by
    rw [hrun]
    rfl
  have hrecipients : recipientsOf h.turns = askedTwice := by
    rw [hrun]
    rfl
  have hserved : served ∈ callLog h.turns := hlog ▸ List.mem_cons_self
  obtain ⟨hphase, _, hresolve, _, _, _, hturn⟩ :=
    consistent_between keys (.ofSecs 60) [startFor refusingRefresh]
  obtain ⟨hstart, _, hpublishes⟩ := hturn again
  refine ⟨hblob, (hphase hblob).1, hlog, hrecipients ▸ hresolve, rfl, ?_, ?_⟩
  · intro hcalled
    exact (hstart.mp hcalled).2.2 hserved
  · rcases hpublishes rfl with ⟨_, _, _, _, hcount⟩ | ⟨hunpublished, _⟩
    · have hsome : h.server.published.set.isSome = true := by simpa [Published.blob] using hblob
      exact hcount.trans (if_pos (by rw [hsome, Bool.true_or]))
    · rcases hunpublished with hrefused | hunserved
      · rw [offer_startFor hmade] at hrefused
        cases hrefused
      · rw [callLog_step] at hunserved
        exact absurd (List.mem_append_left _ hserved) hunserved

end BeaconMesh.Notification.Server
