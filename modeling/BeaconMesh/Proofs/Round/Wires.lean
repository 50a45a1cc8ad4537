import BeaconMesh.Proofs.Round.Messages
import BeaconMesh.Round.Mesh

/-!
A connection and its two ends: what either end has read is a beginning of what the other one has
written, however the bytes were cut, and what an end makes of it when it is whole.
-/

set_option autoImplicit false
set_option relaxedAutoImplicit false

namespace BeaconMesh.Round

private theorem take_append_piece (bytes : Bytes) (start count : Nat) :
    bytes.take start ++ (bytes.drop start).take count
      = bytes.take (start + ((bytes.drop start).take count).length) := by
  rw [List.take_add, List.length_take, ← List.take_eq_take_min]

theorem Attempt.step_arrived_of_awaiting {a : Attempt} {received : Bytes}
    (h : a.stage = .awaiting received) (c : Context) (code : UInt8) (limit : Duration)
    (more : Bytes) :
    (a.step c code limit (.arrived more)).stage = Attempt.receive c received more := by
  rcases a with ⟨stage, written⟩
  obtain rfl : stage = .awaiting received := h
  rfl

theorem Attempt.step_arrived_of_not_awaiting {a : Attempt}
    (h : ∀ received, a.stage ≠ .awaiting received) (c : Context) (code : UInt8) (limit : Duration)
    (more : Bytes) : a.step c code limit (.arrived more) = a := by
  rcases a with ⟨_ | received | result, written⟩
  case connecting => rfl
  case awaiting => exact absurd rfl (h received)
  case done => rfl

theorem Attempt.step_connected {a : Attempt} (h : a.isConnecting = true) (c : Context)
    (code : UInt8) (limit : Duration) :
    a.step c code limit .connected = ⟨.awaiting [], a.written ++ (c.request code).encode⟩ := by
  rcases a with ⟨_ | received | result, written⟩
  case connecting => rfl
  all_goals cases h

theorem Attempt.isConnecting_arrived {a : Attempt} {c : Context} {code : UInt8} {limit : Duration}
    {more : Bytes} (h : (a.step c code limit (.arrived more)).isConnecting = true) :
    a.step c code limit (.arrived more) = a := by
  rcases a with ⟨_ | received | result, written⟩
  case connecting => rfl
  case awaiting =>
    unfold Attempt.isConnecting at h
    rw [Attempt.step_arrived_of_awaiting rfl, Attempt.receive] at h
    split_ifs at h
  case done => rfl

theorem Session.step_arrived_of_reading {s : Session} {received : Bytes}
    (h : s.stage = .reading received) (c : Context) (code : UInt8) (limit : Duration)
    (more : Bytes) :
    s.step c code limit (.arrived more) = s.receive c code received more := by
  rcases s with ⟨stage, written⟩
  obtain rfl : stage = .reading received := h
  rfl

theorem Session.step_arrived_of_not_reading {s : Session}
    (h : ∀ received, s.stage ≠ .reading received) (c : Context) (code : UInt8) (limit : Duration)
    (more : Bytes) : s.step c code limit (.arrived more) = s := by
  rcases s with ⟨received | sender | result, written⟩
  case reading => exact absurd rfl (h received)
  case lingering => rfl
  case done => rfl

namespace Wire

variable {ι : Type} {w : Wire ι} {a : Attempt} {s : Session} {c d : Context} {wanted : UInt8}

/-- An attempt that waits has read of the response what has arrived. -/
def AwaitedBy (w : Wire ι) (a : Attempt) : Prop :=
  ∀ received, a.stage = .awaiting received → received = w.response.take w.responseRead

/-- A session has written the response, and while it reads it has read of the request what has
arrived and written nothing. -/
structure ReadBy (w : Wire ι) (s : Session) : Prop where
  written : s.written = w.response
  reading : ∀ received, s.stage = .reading received →
    received = w.request.take w.requestRead ∧ w.response = []

def afterResponse (w : Wire ι) (count : Nat) : Wire ι :=
  { w with responseRead := w.responseRead + (w.nextResponse count).length }

def afterRequest (w : Wire ι) (count : Nat) (written : Bytes) : Wire ι :=
  { w with requestRead := w.requestRead + (w.nextRequest count).length, response := written }

private theorem take_afterResponse (w : Wire ι) (count : Nat) :
    w.response.take w.responseRead ++ w.nextResponse count
      = (w.afterResponse count).response.take (w.afterResponse count).responseRead :=
  take_append_piece w.response w.responseRead count

theorem responseRead_afterResponse_le (hread : w.responseRead ≤ w.response.length) (count : Nat) :
    (w.afterResponse count).responseRead ≤ (w.afterResponse count).response.length := by
  show w.responseRead + ((w.response.drop w.responseRead).take count).length ≤ w.response.length
  rw [List.length_take, List.length_drop]
  omega

theorem AwaitedBy.of_written {count : Nat} {written : Bytes} (h : w.AwaitedBy a)
    (hread : w.responseRead ≤ w.response.length)
    (hwritten : written = w.response ∨ w.response = []) :
    (w.afterRequest count written).AwaitedBy a := by
  intro received hstage
  have hreceived := h received hstage
  show received = written.take w.responseRead
  rcases hwritten with hsame | hnone
  · rw [hsame]
    exact hreceived
  · rw [hnone] at hreceived hread
    rw [Nat.le_zero.mp hread, List.take_zero]
    rw [List.take_nil] at hreceived
    exact hreceived

theorem responseRead_le_of_written {written : Bytes} (hread : w.responseRead ≤ w.response.length)
    (hwritten : written = w.response ∨ w.response = []) : w.responseRead ≤ written.length := by
  rcases hwritten with hsame | hnone
  · rw [hsame]
    exact hread
  · rw [hnone] at hread
    exact Nat.le_trans hread (Nat.zero_le _)

theorem AwaitedBy.whole (h : w.AwaitedBy a) (hpayload : c.payload.length = d.payload.length)
    (hresponse : w.response = [] ∨ ∃ outcome, w.response = (d.response outcome).encode)
    {received : Bytes} (hstage : a.stage = .awaiting received) {count : Nat}
    (hlong : ¬ (received ++ w.nextResponse count).length < c.messageLength) :
    ∃ outcome, w.response = (d.response outcome).encode ∧
      (received ++ w.nextResponse count).take c.messageLength = w.response := by
  have hread : received ++ w.nextResponse count = w.response.take
      (w.afterResponse count).responseRead := by
    rw [h received hstage, take_afterResponse]
    rfl
  rcases hresponse with hnone | ⟨outcome, houtcome⟩
  · rw [hread, hnone, List.take_nil] at hlong
    refine absurd ?_ hlong
    show 0 < 17 + c.payload.length
    omega
  · have hlength : w.response.length = c.messageLength := by
      rw [houtcome, Message.length_encode, Context.messageLength, hpayload]
      rfl
    refine ⟨outcome, houtcome, ?_⟩
    rw [hread, List.length_take] at hlong
    rw [hread, List.take_take, List.take_of_length_le (by omega)]

/-- An attempt goes on waiting or has ended, and it ends well only if the other end has written
success. -/
theorem awaitedBy_arrived (h : w.AwaitedBy a) (hpayload : c.payload.length = d.payload.length)
    (hresponse : w.response = [] ∨ ∃ outcome, w.response = (d.response outcome).encode)
    (code : UInt8) (limit : Duration) (count : Nat) :
    (w.afterResponse count).AwaitedBy (a.step c code limit (.arrived (w.nextResponse count))) ∧
      ∀ u, (a.step c code limit (.arrived (w.nextResponse count))).stage = .done (.ok u) →
        a.stage = .done (.ok u) ∨ (u = d.self ∧ w.response = (d.response .success).encode) := by
  by_cases hwaits : ∃ received, a.stage = .awaiting received
  · obtain ⟨received, hstage⟩ := hwaits
    have hstep := Attempt.step_arrived_of_awaiting hstage c code limit (w.nextResponse count)
    have htotal : received ++ w.nextResponse count
        = (w.afterResponse count).response.take (w.afterResponse count).responseRead := by
      rw [h received hstage, take_afterResponse]
    rw [AwaitedBy, hstep, Attempt.receive]
    by_cases hshort : (received ++ w.nextResponse count).length < c.messageLength
    · rw [if_pos hshort]
      constructor
      · intro later hlater
        obtain rfl := Attempt.Stage.awaiting.inj hlater
        exact htotal
      · intro u hu
        cases hu
    · rw [if_neg hshort]
      refine ⟨?_, ?_⟩
      · intro later hlater
        cases hlater
      intro u hu
      right
      have hverdict := Attempt.Stage.done.inj hu
      obtain ⟨outcome, houtcome, hwhole⟩ := h.whole hpayload hresponse hstage hshort
      rw [hwhole, houtcome] at hverdict
      obtain ⟨hself, hsuccess⟩ := Attempt.verdict_response hpayload hverdict
      exact ⟨hself, by rw [houtcome, hsuccess]⟩
  · have hnot : ∀ received, a.stage ≠ .awaiting received :=
      fun received hstage => hwaits ⟨received, hstage⟩
    rw [Attempt.step_arrived_of_not_awaiting hnot]
    exact ⟨fun received hstage => absurd hstage (hnot received), fun u hu => Or.inl hu⟩

theorem ReadBy.whole (h : w.ReadBy s) (hpayload : c.payload.length = d.payload.length)
    (hrequest : w.request = (d.request wanted).encode) {received : Bytes}
    (hstage : s.stage = .reading received) {count : Nat}
    (hlong : ¬ (received ++ w.nextRequest count).length < c.messageLength) :
    (received ++ w.nextRequest count).take c.messageLength = (d.request wanted).encode := by
  have htotal : received ++ w.nextRequest count
      = w.request.take (w.requestRead + (w.nextRequest count).length) := by
    rw [(h.reading received hstage).1]
    exact take_append_piece w.request w.requestRead count
  have hlength : w.request.length = c.messageLength := by
    rw [hrequest, Message.length_encode, Context.messageLength, hpayload]
    rfl
  rw [htotal, List.length_take] at hlong
  rw [htotal, List.take_take, List.take_of_length_le (by omega), hrequest]

/-- A session goes on reading or has written its answer, which is success only if the request was
for the session's own round. -/
theorem readBy_arrived (h : w.ReadBy s) (hpayload : c.payload.length = d.payload.length)
    (hrequest : w.request = (d.request wanted).encode) (code : UInt8) (limit : Duration)
    (count : Nat) :
    (w.afterRequest count (s.step c code limit (.arrived (w.nextRequest count))).written).ReadBy
        (s.step c code limit (.arrived (w.nextRequest count))) ∧
      ((s.step c code limit (.arrived (w.nextRequest count))).written = w.response ∨
        (w.response = [] ∧ ∃ outcome,
          (s.step c code limit (.arrived (w.nextRequest count))).written
            = (c.response outcome).encode ∧ (outcome = .success → wanted = code))) := by
  by_cases hreads : ∃ received, s.stage = .reading received
  · obtain ⟨received, hstage⟩ := hreads
    obtain ⟨hreceived, hnothing⟩ := h.reading received hstage
    have hwritten : s.written = [] := h.written.trans hnothing
    have hstep := Session.step_arrived_of_reading hstage c code limit (w.nextRequest count)
    have htotal : received ++ w.nextRequest count
        = w.request.take (w.requestRead + (w.nextRequest count).length) := by
      rw [hreceived]
      exact take_append_piece w.request w.requestRead count
    rw [hstep, Session.receive]
    by_cases hshort : (received ++ w.nextRequest count).length < c.messageLength
    · rw [if_pos hshort]
      refine ⟨⟨rfl, fun later hlater => ?_⟩, Or.inl h.written⟩
      obtain rfl := Session.Stage.reading.inj hlater
      exact ⟨htotal, hwritten⟩
    · rw [if_neg hshort]
      rw [h.whole hpayload hrequest hstage hshort]
      obtain ⟨outcome, hanswer, hsuccess, hended⟩ := Session.answer_request hpayload code wanted s
      refine ⟨⟨rfl, fun later hlater => absurd hlater (hended later)⟩,
        Or.inr ⟨hnothing, outcome, ?_, hsuccess⟩⟩
      rw [hanswer, hwritten, List.nil_append]
  · have hnot : ∀ received, s.stage ≠ .reading received :=
      fun received hstage => hreads ⟨received, hstage⟩
    rw [Session.step_arrived_of_not_reading hnot]
    exact ⟨⟨rfl, fun received hstage => absurd hstage (hnot received)⟩, Or.inl h.written⟩

end Wire

end BeaconMesh.Round
