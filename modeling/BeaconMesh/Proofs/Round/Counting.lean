import BeaconMesh.Proofs.Round.Wires
import BeaconMesh.Round.Connection

/-!
Who is counted. A round is to report as validated those who have seen its answer of success. The end
that was dialed takes it for seen when the other one has hung up after success was written to it.
Hanging up is no proof of having read: an attempt that is cut off hangs up too.

This module says how far the report can be relied on, over one connection and all that can happen on
it. `Sound` is what every event keeps, and `Heard` what every event keeps by which the attempt is
not cut off. From them `counted_accepted` is the law that holds: whoever is counted was told of
success and has hung up, and has accepted the answer unless the attempt was cut off. The exception
is a real one: `counted_unread` is a run in which somebody is counted who has read nothing.
-/

set_option autoImplicit false
set_option relaxedAutoImplicit false

namespace BeaconMesh.Round

theorem Attempt.step_of_isSome {a : Attempt} (h : a.result?.isSome = true) (c : Context)
    (code : UInt8) (limit : Duration) (n : Notice) : a.step c code limit n = a := by
  rcases a with ⟨_ | received | result, written⟩
  case done => rfl
  all_goals cases h

theorem Attempt.step_ending {a : Attempt} {n : Notice} (hconnected : n ≠ .connected)
    (harrived : ∀ bytes, n ≠ .arrived bytes) (c : Context) (code : UInt8) (limit : Duration) :
    (a.step c code limit n).written = a.written ∧
      ∀ received, (a.step c code limit n).stage ≠ .awaiting received := by
  rcases a with ⟨_ | received | result, written⟩
  all_goals
    cases n with
    | connected => exact absurd rfl hconnected
    | arrived bytes => exact absurd rfl (harrived bytes)
    | hungUp => exact ⟨rfl, fun _ h => nomatch h⟩
    | failed cause => exact ⟨rfl, fun _ h => nomatch h⟩
    | tooLate => exact ⟨rfl, fun _ h => nomatch h⟩

theorem Attempt.written_arrived (a : Attempt) (c : Context) (code : UInt8) (limit : Duration)
    (bytes : Bytes) : (a.step c code limit (.arrived bytes)).written = a.written := by
  rcases a with ⟨_ | received | result, written⟩
  all_goals rfl

theorem Attempt.step_hungUp (a : Attempt) (c : Context) (code : UInt8) (limit : Duration) :
    a.step c code limit .hungUp = a ∨ (∃ received, a.stage = .awaiting received) ∧
      (a.step c code limit .hungUp).stage = .done (.error (.connection endedEarly)) := by
  rcases a with ⟨_ | received | result, written⟩
  case connecting => exact .inl rfl
  case awaiting => exact .inr ⟨⟨received, rfl⟩, rfl⟩
  case done => exact .inl rfl

theorem Session.step_ending {s : Session} {n : Notice} (hconnected : n ≠ .connected)
    (harrived : ∀ bytes, n ≠ .arrived bytes) (c : Context) (code : UInt8) (limit : Duration) :
    (s.step c code limit n).written = s.written ∧
      (∀ received, (s.step c code limit n).stage ≠ .reading received) ∧
      (∀ u, (s.step c code limit n).stage ≠ .lingering u) ∧
      ∀ u, (s.step c code limit n).stage = .done (.ok (some u)) →
        s.stage = .done (.ok (some u)) ∨ s.stage = .lingering u ∧ n = .hungUp := by
  rcases s with ⟨received | sender | result, written⟩
  case reading =>
    cases n with
    | connected => exact absurd rfl hconnected
    | arrived bytes => exact absurd rfl (harrived bytes)
    | hungUp | failed | tooLate =>
      exact ⟨rfl, fun _ h => (nomatch h), fun _ h => (nomatch h), fun _ h => (nomatch h)⟩
  case lingering =>
    cases n with
    | connected => exact absurd rfl hconnected
    | arrived bytes => exact absurd rfl (harrived bytes)
    | hungUp =>
      refine ⟨rfl, fun _ h => (nomatch h), fun _ h => (nomatch h), ?_⟩
      rintro u ⟨⟩
      exact .inr ⟨rfl, rfl⟩
    | failed | tooLate =>
      exact ⟨rfl, fun _ h => (nomatch h), fun _ h => (nomatch h), fun _ h => (nomatch h)⟩
  case done => exact ⟨rfl, fun _ h => (nomatch h), fun _ h => (nomatch h), fun _ h => .inl h⟩

theorem Attempt.verdict_success {c d : Context} (hpayload : d.payload = c.payload)
    (hmember : d.self ∈ c.participants) :
    Attempt.verdict c (d.response .success).encode = .ok d.self := by
  have hread : Message.decode? c.payload.length (d.response .success).encode
      = some (d.response .success) := by
    rw [← hpayload]
    exact (d.response .success).decode?_encode
  have hinterpret : c.interpret (d.response .success) = .ok d.self := by
    rw [Context.interpret, if_neg (fun hnot => hnot hmember), if_neg (fun hnot => hnot hpayload)]
    rw [show Outcome.ofCode? (d.response .success).code = some .success from
      Outcome.ofCode?_code .success]
    rfl
  rw [verdict, hread]
  simp only [hinterpret]
  rfl

namespace Wire

variable {ι : Type} {w : Wire ι} {s : Session} {c d : Context} {wanted : UInt8}

theorem lingering_arrived (h : w.ReadBy s) (hpayload : c.payload.length = d.payload.length)
    (hrequest : w.request = (d.request wanted).encode) {code : UInt8} {limit : Duration}
    {count : Nat} {u : Uuid}
    (hu : (s.step c code limit (.arrived (w.nextRequest count))).stage = .lingering u) :
    s.stage = .lingering u ∨ u = d.self ∧
      (s.step c code limit (.arrived (w.nextRequest count))).written
        = (c.response .success).encode := by
  by_cases hreads : ∃ received, s.stage = .reading received
  · obtain ⟨received, hstage⟩ := hreads
    have hwritten : s.written = [] := h.written.trans (h.reading received hstage).2
    rw [Session.step_arrived_of_reading hstage, Session.receive] at hu ⊢
    by_cases hshort : (received ++ w.nextRequest count).length < c.messageLength
    · rw [if_pos hshort] at hu
      cases hu
    · rw [if_neg hshort, h.whole hpayload hrequest hstage hshort] at hu ⊢
      have hread : Message.decode? c.payload.length (d.request wanted).encode
          = some (d.request wanted) := by
        rw [hpayload]
        exact (d.request wanted).decode?_encode
      simp only [Session.answer, hread] at hu ⊢
      split at hu
      · rename_i hsuccess
        cases hu
        exact .inr ⟨rfl, by rw [hwritten, hsuccess, List.nil_append]⟩
      · cases hu
  · rw [Session.step_arrived_of_not_reading fun received hstage => hreads ⟨received, hstage⟩] at hu
    exact .inl hu

end Wire

theorem Session.counted_arrived {s : Session} {c : Context} {code : UInt8} {limit : Duration}
    {bytes : Bytes} {u : Uuid}
    (hu : (s.step c code limit (.arrived bytes)).stage = .done (.ok (some u))) :
    s.stage = .done (.ok (some u)) := by
  by_cases hreads : ∃ received, s.stage = .reading received
  · obtain ⟨received, hstage⟩ := hreads
    rw [Session.step_arrived_of_reading hstage, Session.receive] at hu
    split at hu
    · cases hu
    · unfold Session.answer at hu
      split at hu
      · cases hu
      · simp only at hu
        split at hu
        · cases hu
        · cases hu
  · rwa [Session.step_arrived_of_not_reading fun received hstage => hreads ⟨received, hstage⟩] at hu

namespace Connection

variable {e : Ends} {k : Connection}

def wire (k : Connection) : Wire Unit :=
  ⟨(), "", 0, (), none, k.attempt.written, k.requestRead, k.session.written, k.responseRead⟩

/-- What holds of a connection whatever happens: both ends have read beginnings of what the other
one has written, and whoever is counted was told of success and has hung up. -/
structure Sound (e : Ends) (k : Connection) : Prop where
  request : k.attempt.written = (e.dialer.request e.wanted).encode
  read : k.wire.ReadBy k.session
  awaited : k.wire.AwaitedBy k.attempt
  arrived : k.responseRead ≤ k.session.written.length
  response : k.session.written = [] ∨
    ∃ outcome, k.session.written = (e.listener.response outcome).encode
  lingers : ∀ u, k.session.stage = .lingering u →
    u = e.dialer.self ∧ k.session.written = (e.listener.response .success).encode
  counted : ∀ u, k.session.stage = .done (.ok (some u)) → u = e.dialer.self ∧
    k.session.written = (e.listener.response .success).encode ∧ k.dialerOver = true

theorem sound_dialed (e : Ends) : Sound e (dialed e) where
  request := rfl
  read := ⟨rfl, fun received h => by cases h; exact ⟨rfl, rfl⟩⟩
  awaited := fun received h => by cases h; rfl
  arrived := Nat.le_refl _
  response := .inl rfl
  lingers := fun _ h => nomatch h
  counted := fun _ h => nomatch h

theorem dialerOver_toDialer (h : k.dialerOver = true) (n : Notice) :
    (k.toDialer e n).dialerOver = true := by
  unfold toDialer
  split
  · exact h
  · rename_i habandoned
    have hresult : k.attempt.result?.isSome = true := by
      simpa [dialerOver, habandoned] using h
    simp [dialerOver, Attempt.step_of_isSome hresult, hresult]

theorem sound_toDialer (h : Sound e k) {n : Notice} (hconnected : n ≠ .connected)
    (harrived : ∀ bytes, n ≠ .arrived bytes) : Sound e (k.toDialer e n) := by
  by_cases habandoned : k.abandoned = true
  · rw [toDialer, if_pos habandoned]
    exact h
  · have hover := fun hover => dialerOver_toDialer (e := e) (k := k) hover n
    rw [toDialer, if_neg habandoned] at hover ⊢
    obtain ⟨hwritten, hwaits⟩ :=
      k.attempt.step_ending hconnected harrived e.dialer e.wanted e.limit
    refine ⟨hwritten.trans h.request, ?_, fun received hstage => absurd hstage (hwaits received),
      h.arrived, h.response, h.lingers, ?_⟩
    · refine ⟨h.read.written, ?_⟩
      intro received hstage
      obtain ⟨hreceived, hnothing⟩ := h.read.reading received hstage
      exact ⟨hreceived.trans (by simp only [wire, hwritten]), hnothing⟩
    · intro u hu
      obtain ⟨hself, hsuccess, hleft⟩ := h.counted u hu
      exact ⟨hself, hsuccess, hover hleft⟩

theorem sound_toListener (h : Sound e k) {n : Notice} (hconnected : n ≠ .connected)
    (harrived : ∀ bytes, n ≠ .arrived bytes) (hover : n = .hungUp → k.dialerOver = true) :
    Sound e (k.toListener e n) := by
  obtain ⟨hwritten, hreads, hlingers, hcounts⟩ :=
    k.session.step_ending hconnected harrived e.listener e.code e.limit
  have hsame : (k.toListener e n).session.written = k.session.written := hwritten
  refine ⟨h.request, ⟨rfl, fun received hstage => absurd hstage (hreads received)⟩, ?_, ?_, ?_,
    fun u hu => absurd hu (hlingers u), ?_⟩
  · intro received hstage
    rw [h.awaited received hstage]
    simp only [wire, hsame]
    rfl
  · rw [hsame]
    exact h.arrived
  · rw [hsame]
    exact h.response
  · intro u hu
    rw [hsame]
    rcases hcounts u hu with hbefore | ⟨hlingered, hleft⟩
    · exact h.counted u hbefore
    · obtain ⟨hself, hsuccess⟩ := h.lingers u hlingered
      exact ⟨hself, hsuccess, hover hleft⟩

theorem sound_carryRequest (h : Sound e k)
    (hpayload : e.listener.payload.length = e.dialer.payload.length) (count : Nat) :
    Sound e (k.step e (.carryRequest count)) := by
  obtain ⟨hread, hanswer⟩ :=
    Wire.readBy_arrived h.read hpayload h.request e.code e.limit count
  have heither := hanswer.imp_right fun hnew => hnew.1
  -- a session that has read its request does not look at what follows
  have hstays : (∀ received, k.session.stage ≠ .reading received) →
      (k.step e (.carryRequest count)).session = k.session := fun hnot =>
    Session.step_arrived_of_not_reading hnot e.listener e.code e.limit _
  refine ⟨h.request, hread, h.awaited.of_written h.arrived heither,
    Wire.responseRead_le_of_written (w := k.wire) h.arrived heither, ?_, ?_, ?_⟩
  · rcases hanswer with hsame | ⟨-, outcome, houtcome, -⟩
    · exact hsame ▸ h.response
    · exact .inr ⟨outcome, houtcome⟩
  · intro u hu
    rcases Wire.lingering_arrived h.read hpayload h.request hu with hbefore | htold
    · rw [hstays (by simp [hbefore])]
      exact h.lingers u hbefore
    · exact htold
  · intro u hu
    have hbefore := Session.counted_arrived hu
    rw [hstays (by simp [hbefore])]
    exact h.counted u hbefore

theorem sound_carryResponse (h : Sound e k)
    (hpayload : e.listener.payload.length = e.dialer.payload.length) (count : Nat) :
    Sound e (k.step e (.carryResponse count)) := by
  by_cases habandoned : k.abandoned = true
  · rw [step, if_pos habandoned]
    exact h
  · have hover := fun hover => dialerOver_toDialer (e := e) (k := k) hover
      (.arrived ((k.session.written.drop k.responseRead).take count))
    simp only [step, toDialer, if_neg habandoned] at hover ⊢
    have hwritten := Attempt.written_arrived k.attempt e.dialer e.wanted e.limit
      ((k.session.written.drop k.responseRead).take count)
    obtain ⟨hawaited, -⟩ :=
      Wire.awaitedBy_arrived h.awaited hpayload.symm h.response e.wanted e.limit count
    refine ⟨hwritten.trans h.request, ?_, hawaited,
      Wire.responseRead_afterResponse_le (w := k.wire) h.arrived count, h.response, h.lingers, ?_⟩
    · refine ⟨h.read.written, ?_⟩
      intro received hstage
      obtain ⟨hreceived, hnothing⟩ := h.read.reading received hstage
      exact ⟨hreceived.trans (by simp only [wire, hwritten]), hnothing⟩
    · intro u hu
      obtain ⟨hself, hsuccess, hleft⟩ := h.counted u hu
      exact ⟨hself, hsuccess, hover hleft⟩

theorem sound_step (h : Sound e k)
    (hpayload : e.listener.payload.length = e.dialer.payload.length) (event : Event) :
    Sound e (k.step e event) := by
  cases event with
  | carryRequest count => exact sound_carryRequest h hpayload count
  | carryResponse count => exact sound_carryResponse h hpayload count
  | dialerLeft =>
    rw [step]
    split
    · rename_i hover
      simp only [Bool.and_eq_true] at hover
      exact sound_toListener h (by simp) (by simp) fun _ => hover.1
    · exact h
  | listenerLeft =>
    rw [step]
    split
    · exact sound_toDialer h (by simp) (by simp)
    · exact h
  | dialerFailed cause => exact sound_toDialer h (by simp) (by simp)
  | dialerLate => exact sound_toDialer h (by simp) (by simp)
  | dialerAborted =>
    refine ⟨h.request, h.read, h.awaited, h.arrived, h.response, h.lingers, ?_⟩
    intro u hu
    obtain ⟨hself, hsuccess, -⟩ := h.counted u hu
    exact ⟨hself, hsuccess, rfl⟩
  | listenerFailed cause => exact sound_toListener h (by simp) (by simp) (by simp)
  | listenerLate => exact sound_toListener h (by simp) (by simp) (by simp)

theorem sound_run (h : Sound e k)
    (hpayload : e.listener.payload.length = e.dialer.payload.length) (events : List Event) :
    Sound e (k.run e events) := by
  induction events generalizing k with
  | nil => exact h
  | cons event events ih => exact ih (sound_step h hpayload event)

/-- What holds of a connection on which the attempt is not cut off: it has accepted the answer, or
waits for more of it, or has ended because the answer is not one of success. -/
structure Heard (e : Ends) (k : Connection) : Prop where
  present : k.abandoned = false
  waiting : ∀ received, k.attempt.stage = .awaiting received →
    received.length < e.dialer.messageLength
  accepted : ∀ u, k.attempt.stage = .done (.ok u) → u = e.listener.self
  refused : ∀ fault, k.attempt.stage = .done (.error fault) →
    k.session.written ≠ (e.listener.response .success).encode ∧
      ∀ received, k.session.stage ≠ .reading received

theorem heard_dialed (e : Ends) : Heard e (dialed e) where
  present := rfl
  waiting := by
    rintro received ⟨⟩
    show 0 < 17 + e.dialer.payload.length
    omega
  accepted := fun _ h => nomatch h
  refused := fun _ h => nomatch h

theorem heard_of_session (h : Heard e k) {s : Session} {requestRead : Nat}
    (hends : (∀ received, k.session.stage ≠ .reading received) →
      s.written = k.session.written ∧ ∀ received, s.stage ≠ .reading received) :
    Heard e { k with session := s, requestRead := requestRead } where
  present := h.present
  waiting := h.waiting
  accepted := h.accepted
  refused := by
    intro fault hfault
    obtain ⟨hvain, hread⟩ := h.refused fault hfault
    obtain ⟨hwritten, hread'⟩ := hends hread
    exact ⟨hwritten ▸ hvain, hread'⟩

theorem heard_carryResponse (hs : Sound e k) (h : Heard e k)
    (hpayload : e.listener.payload = e.dialer.payload)
    (hmember : e.listener.self ∈ e.dialer.participants) (count : Nat) :
    Heard e (k.step e (.carryResponse count)) := by
  have hlength : e.dialer.payload.length = e.listener.payload.length := by rw [hpayload]
  simp only [step, toDialer, h.present, Bool.false_eq_true, if_false]
  by_cases hwaits : ∃ received, k.attempt.stage = .awaiting received
  · obtain ⟨received, hstage⟩ := hwaits
    have hstep := Attempt.step_arrived_of_awaiting hstage e.dialer e.wanted e.limit
      (k.wire.nextResponse count)
    rw [Attempt.receive] at hstep
    by_cases hshort : (received ++ k.wire.nextResponse count).length < e.dialer.messageLength
    · rw [if_pos hshort] at hstep
      refine ⟨rfl, ?_, ?_, ?_⟩
      · intro later hlater
        cases hstep.symm.trans hlater
        exact hshort
      · intro u hu
        cases hstep.symm.trans hu
      · intro fault hfault
        cases hstep.symm.trans hfault
    · obtain ⟨outcome, houtcome, hwhole⟩ := hs.awaited.whole hlength hs.response hstage hshort
      rw [if_neg hshort, hwhole, houtcome] at hstep
      refine ⟨rfl, ?_, ?_, ?_⟩
      · intro later hlater
        cases hstep.symm.trans hlater
      · intro u hu
        have hverdict := Attempt.Stage.done.inj (hstep.symm.trans hu)
        exact (Attempt.verdict_response hlength hverdict).1
      · intro fault hfault
        have hverdict := Attempt.Stage.done.inj (hstep.symm.trans hfault)
        refine ⟨fun hsuccess => ?_, fun received hreads => ?_⟩
        · rw [← houtcome, show k.wire.response = _ from hsuccess,
            Attempt.verdict_success hpayload hmember] at hverdict
          cases hverdict
        · have hnothing : k.wire.response = [] := (hs.read.reading received hreads).2
          have hwritten := congrArg List.length (houtcome.symm.trans hnothing)
          rw [Message.length_encode, Message.lengthFor, List.length_nil] at hwritten
          omega
  · have hnot := Attempt.step_arrived_of_not_awaiting
      (fun received hstage => hwaits ⟨received, hstage⟩) e.dialer e.wanted e.limit
      ((k.session.written.drop k.responseRead).take count)
    rw [hnot]
    exact ⟨rfl, h.waiting, h.accepted, h.refused⟩

theorem heard_listenerLeft (hs : Sound e k) (h : Heard e k)
    (hpayload : e.listener.payload = e.dialer.payload) : Heard e (k.step e .listenerLeft) := by
  rw [step]
  split
  · rename_i hleft
    simp only [Bool.and_eq_true, beq_iff_eq] at hleft
    obtain ⟨hover, hall⟩ := hleft
    rw [toDialer, if_neg (by simp [h.present])]
    rcases k.attempt.step_hungUp e.dialer e.wanted e.limit with hsame | ⟨⟨received, hstage⟩, hended⟩
    · rw [hsame]
      exact h
    · refine ⟨h.present, fun later hlater => (nomatch hended.symm.trans hlater),
        fun u hu => (nomatch hended.symm.trans hu), fun fault hfault => ⟨?_, ?_⟩⟩
      · intro hsuccess
        -- all of the answer has arrived, which is more than the attempt has read
        have hread : received = k.session.written.take k.responseRead := hs.awaited received hstage
        have hshort := h.waiting received hstage
        rw [hread, hall, List.take_length, show k.session.written = _ from hsuccess,
          Message.length_encode, Context.messageLength, ← hpayload] at hshort
        exact absurd hshort (Nat.lt_irrefl _)
      · intro later hreads
        have hnothing : k.session.written = [] := (hs.read.reading later hreads).2
        have hreading : k.session.stage = .reading later := hreads
        simp [listenerOver, hnothing, Session.result?, hreading] at hover
  · exact h

theorem heard_step (hs : Sound e k) (h : Heard e k)
    (hpayload : e.listener.payload = e.dialer.payload)
    (hmember : e.listener.self ∈ e.dialer.participants) {event : Event}
    (hwhole : event.cutsOff = false) : Heard e (k.step e event) := by
  have hends : ∀ n : Notice, n ≠ .connected → (∀ bytes, n ≠ .arrived bytes) →
      Heard e (k.toListener e n) := by
    intro n hconnected harrived
    obtain ⟨hwritten, hreads, -⟩ :=
      k.session.step_ending hconnected harrived e.listener e.code e.limit
    exact heard_of_session h fun _ => ⟨hwritten, hreads⟩
  cases event with
  | carryRequest count =>
    refine heard_of_session h fun hread => ?_
    rw [toListener, Session.step_arrived_of_not_reading hread]
    exact ⟨rfl, hread⟩
  | carryResponse count => exact heard_carryResponse hs h hpayload hmember count
  | dialerLeft =>
    rw [step]
    split
    · exact hends .hungUp (by simp) (by simp)
    · exact h
  | listenerLeft => exact heard_listenerLeft hs h hpayload
  | dialerFailed cause => cases hwhole
  | dialerLate => cases hwhole
  | dialerAborted => cases hwhole
  | listenerFailed cause => exact hends (.failed cause) (by simp) (by simp)
  | listenerLate => exact hends .tooLate (by simp) (by simp)

theorem heard_run (hs : Sound e k) (h : Heard e k)
    (hpayload : e.listener.payload = e.dialer.payload)
    (hmember : e.listener.self ∈ e.dialer.participants) {events : List Event}
    (hwhole : ∀ event ∈ events, event.cutsOff = false) : Heard e (k.run e events) := by
  induction events generalizing k with
  | nil => exact h
  | cons event events ih =>
    refine ih (sound_step hs (congrArg List.length hpayload) event) ?_ ?_
    · exact heard_step hs h hpayload hmember (hwhole event List.mem_cons_self)
    · exact fun later hlater => hwhole later (List.mem_cons_of_mem event hlater)

/-- Whatever happens on a connection, a listener that counts somebody counts the dialer, which was
told of success and has hung up: it has accepted that, unless its attempt was cut off. -/
theorem counted_accepted (e : Ends) (hpayload : e.listener.payload = e.dialer.payload)
    (hmember : e.listener.self ∈ e.dialer.participants) (events : List Event) {u : Uuid}
    (hcounted : ((dialed e).run e events).session.stage = .done (.ok (some u))) :
    let k := (dialed e).run e events
    u = e.dialer.self ∧ k.session.written = (e.listener.response .success).encode ∧
    k.dialerOver = true ∧
    (k.attempt.stage = .done (.ok e.listener.self) ∨
      ∃ event ∈ events, event.cutsOff = true) := by
  intro k
  have hs : Sound e k := sound_run (sound_dialed e) (congrArg List.length hpayload) events
  obtain ⟨hself, hsuccess, hover⟩ := hs.counted u hcounted
  refine ⟨hself, hsuccess, hover, ?_⟩
  by_cases hcut : ∃ event ∈ events, event.cutsOff = true
  · exact .inr hcut
  · have hwhole : ∀ event ∈ events, event.cutsOff = false := by
      intro event hevent
      exact Bool.eq_false_iff.mpr fun hcuts => hcut ⟨event, hevent, hcuts⟩
    have h : Heard e k := heard_run (sound_dialed e) (heard_dialed e) hpayload hmember hwhole
    left
    rw [dialerOver, h.present, Bool.false_or, Attempt.result?] at hover
    cases hstage : k.attempt.stage with
    | connecting => simp [hstage] at hover
    | awaiting received => simp [hstage] at hover
    | done result =>
      cases result with
      | error fault => exact absurd hsuccess (h.refused fault hstage).1
      | ok responder => rw [h.accepted responder hstage]

def pairEnds : Ends :=
  let first : Uuid := ⟨⟨List.replicate 16 1, by simp⟩⟩
  let second : Uuid := ⟨⟨List.replicate 16 2, by simp⟩⟩
  ⟨.of first [first, second] 3, 0x30, .of second [first, second] 3, 0x30, .ofSecs 1⟩

/-- An attempt that runs out of time before any of the answer has arrived is counted all the
same. -/
theorem counted_unread :
    let k := (dialed pairEnds).run pairEnds [.carryRequest 20, .dialerLate, .dialerLeft]
    k.session.stage = .done (.ok (some pairEnds.dialer.self)) ∧ k.responseRead = 0 ∧
      k.attempt.stage = .done (.error (.timeout pairEnds.limit)) :=
  ⟨rfl, rfl, rfl⟩

end Connection

end BeaconMesh.Round
