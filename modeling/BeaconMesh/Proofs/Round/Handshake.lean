import BeaconMesh.Proofs.Round.Messages

/-!
One exchange between two participants, each with a view of its own of the group and of the round:
what the one that dialed makes of the answer follows from the two views alone, and no change to a
payload on the way lets the exchange end in success.
-/

set_option autoImplicit false
set_option relaxedAutoImplicit false

namespace BeaconMesh.Round

/-- What a participant in the round with a code writes when these bytes have come to it. -/
def Context.reply (c : Context) (code : UInt8) (request : Bytes) : Bytes :=
  (Session.fresh.answer c code request).written

/-- What comes of an exchange in which all bytes arrive as they were written: the end that dials
asks for the round with the code `wanted`, the end that accepts is in the round with `code`. -/
def handshake (a b : Context) (wanted code : UInt8) : Except Fault Uuid :=
  Attempt.verdict a (b.reply code (a.request wanted).encode)

/-- As many bytes have arrived as were sent, and some byte of the payload is another one. -/
def AltersPayload (sent arrived : Bytes) : Prop :=
  arrived.length = sent.length ∧ arrived.drop 17 ≠ sent.drop 17

variable {a b c : Context} {wanted code : UInt8} {outcome : Outcome} {bytes : Bytes}

theorem Message.drop_encode (m : Message) : m.encode.drop 17 = m.payload := by
  have hsender : m.sender.bytes.length = 16 := m.sender.block.length_bytes
  have hrest : m.encode.drop 16 = m.code :: m.payload := List.drop_left' hsender
  rw [show 17 = 16 + 1 from rfl, ← List.drop_drop, hrest]
  rfl

theorem Message.exists_decode? {length : Nat} (h : bytes.length = Message.lengthFor length) :
    ∃ m, Message.decode? length bytes = some m ∧ m.payload = bytes.drop 17 :=
  ⟨_, if_pos h, rfl⟩

theorem Message.code_of_take_eq {length : Nat} {m m' : Message} {bytes bytes' : Bytes}
    (hread : Message.decode? length bytes = some m)
    (hread' : Message.decode? length bytes' = some m') (hhead : bytes.take 17 = bytes'.take 17) :
    m.code = m'.code := by
  have hcode : ∀ {n : Message} {bs : Bytes}, Message.decode? length bs = some n →
      n.code = ((bs.take 17).drop 16).headD 0 := by
    intro n bs hbs
    unfold decode? at hbs
    split at hbs
    · cases hbs
      rw [List.drop_take]
      cases bs.drop 16 <;> rfl
    · cases hbs
  rw [hcode hread, hcode hread', hhead]

namespace Context

theorem judge_request (hpayload : a.payload = b.payload) :
    b.judge (a.request wanted) code
      = if a.self ∉ b.participants then .wrongTestSet
        else if a.self = b.self then .wrongSelfReference
        else if wanted ≠ code then .wrongGeneration
        else .success := by
  simp only [judge, request, hpayload, ne_eq, not_true_eq_false, if_false]

theorem interpret_response (hpayload : a.payload = b.payload) :
    a.interpret (b.response outcome)
      = if b.self ∉ a.participants then .error (.unknownParticipant b.self)
        else if outcome = .success then .ok b.self
        else .error (.outcome b.self outcome) := by
  simp only [interpret, response, hpayload, ne_eq, not_true_eq_false, if_false,
    Outcome.ofCode?_code]
  by_cases hknown : b.self ∈ a.participants
  · simp only [hknown, not_true_eq_false, if_false]
    cases outcome <;> rfl
  · simp only [hknown, not_false_eq_true, if_true]

theorem interpret_ok {answer : Message} {u : Uuid} (h : c.interpret answer = .ok u) :
    answer.payload = c.payload ∧ Outcome.ofCode? answer.code = some .success := by
  unfold interpret at h
  by_cases hknown : answer.sender ∈ c.participants
  · by_cases hpayload : answer.payload = c.payload
    · refine ⟨hpayload, ?_⟩
      simp only [hknown, hpayload, ne_eq, not_true_eq_false, if_false] at h
      split at h
      · assumption
      · cases h
      · cases h
    · simp only [hknown, hpayload, ne_eq, not_true_eq_false, not_false_eq_true, if_false,
        if_true] at h
      cases h
  · simp only [hknown, not_false_eq_true, if_true] at h
    cases h

theorem exists_reply (code : UInt8) (hlength : bytes.length = c.messageLength) :
    ∃ request, Message.decode? c.payload.length bytes = some request ∧
      request.payload = bytes.drop 17 ∧
      c.reply code bytes = (c.response (c.judge request code)).encode := by
  obtain ⟨request, hread, hpayload⟩ := Message.exists_decode? hlength
  refine ⟨request, hread, hpayload, ?_⟩
  rw [reply, Session.answer, hread]
  rfl

theorem length_response (c : Context) (outcome : Outcome) :
    (c.response outcome).encode.length = c.messageLength :=
  Message.length_encode _

theorem judge_ne_success {request : Message} (hpayload : request.payload ≠ c.payload) :
    c.judge request code ≠ .success := by
  unfold judge
  split_ifs <;> simp

end Context

namespace Attempt

theorem verdict_ok {u : Uuid} (hlength : bytes.length = c.messageLength)
    (h : verdict c bytes = .ok u) :
    ∃ response, Message.decode? c.payload.length bytes = some response ∧
      bytes.drop 17 = c.payload ∧ Outcome.ofCode? response.code = some .success := by
  obtain ⟨response, hread, hpayload⟩ := Message.exists_decode? hlength
  refine ⟨response, hread, ?_⟩
  rw [← hpayload]
  cases hinterpret : c.interpret response with
  | error objection =>
    simp only [verdict, hread, hinterpret, Except.mapError] at h
    cases h
  | ok sender => exact Context.interpret_ok hinterpret

end Attempt

/-- The two views decide what comes of an exchange, and in this order: whether the one that answers
is known, whether the one that asks is, whether they are the same, and whether the rounds are. -/
theorem handshake_eq (hpayload : a.payload = b.payload) : handshake a b wanted code
    = if b.self ∉ a.participants then .error (.objection (.unknownParticipant b.self))
      else if a.self ∉ b.participants then .error (.objection (.outcome b.self .wrongTestSet))
      else if a.self = b.self then .error (.objection (.outcome b.self .wrongSelfReference))
      else if wanted ≠ code then .error (.objection (.outcome b.self .wrongGeneration))
      else .ok b.self := by
  have hsent : (a.request wanted).encode.length = b.messageLength := by
    rw [Message.length_encode, Context.messageLength, ← hpayload]
    rfl
  have hasked : Message.decode? b.payload.length (a.request wanted).encode
      = some (a.request wanted) := by
    rw [← hpayload]
    exact (a.request wanted).decode?_encode
  obtain ⟨request, hread, -, hreply⟩ := Context.exists_reply code hsent
  obtain rfl : a.request wanted = request := Option.some.inj (hasked.symm.trans hread)
  have hanswered : Message.decode? a.payload.length
      (b.response (b.judge (a.request wanted) code)).encode
        = some (b.response (b.judge (a.request wanted) code)) := by
    rw [hpayload]
    exact (b.response (b.judge (a.request wanted) code)).decode?_encode
  rw [handshake, hreply, Attempt.verdict, hanswered]
  simp only [Context.interpret_response hpayload, Context.judge_request hpayload]
  split_ifs <;> first | rfl | contradiction

theorem verdict_of_altered_request (hpayload : a.payload = b.payload) {request response : Bytes}
    (haltered : AltersPayload (a.request wanted).encode request)
    (hlength : response.length = (b.reply code request).length)
    (hhead : response.take 17 = (b.reply code request).take 17) (u : Uuid) :
    Attempt.verdict a response ≠ .ok u := by
  obtain ⟨hsame, hother⟩ := haltered
  have hlengths : a.messageLength = b.messageLength := by
    rw [Context.messageLength, Context.messageLength, hpayload]
  have hrequest : request.length = b.messageLength := by
    rw [hsame, Message.length_encode]
    exact hlengths
  obtain ⟨m, -, hm, hreply⟩ := Context.exists_reply code hrequest
  have hwrong : m.payload ≠ b.payload := by
    rw [Message.drop_encode] at hother
    rw [hm, ← hpayload]
    exact hother
  intro hok
  rw [hreply, b.length_response, ← hlengths] at hlength
  obtain ⟨answer, hread, -, hsuccess⟩ := Attempt.verdict_ok hlength hok
  have hwritten : Message.decode? a.payload.length (b.response (b.judge m code)).encode
      = some (b.response (b.judge m code)) := by
    rw [hpayload]
    exact Message.decode?_encode _
  rw [hreply] at hhead
  rw [Message.code_of_take_eq hread hwritten hhead] at hsuccess
  have hcode : Outcome.ofCode? (b.judge m code).code = some .success := hsuccess
  rw [Outcome.ofCode?_code] at hcode
  exact Context.judge_ne_success hwrong (Option.some.inj hcode)

theorem verdict_of_altered_response (hpayload : a.payload = b.payload) {request response : Bytes}
    (haltered : AltersPayload (b.reply code request) response) (u : Uuid) :
    Attempt.verdict a response ≠ .ok u := by
  obtain ⟨hsame, hother⟩ := haltered
  intro hok
  by_cases hrequest : request.length = b.messageLength
  · obtain ⟨m, -, -, hreply⟩ := Context.exists_reply code hrequest
    rw [hreply, b.length_response] at hsame
    rw [hreply, Message.drop_encode] at hother
    have hlength : response.length = a.messageLength := by
      rw [hsame, Context.messageLength, Context.messageLength, hpayload]
    obtain ⟨-, -, hcarried, -⟩ := Attempt.verdict_ok hlength hok
    exact hother (hcarried.trans hpayload)
  · -- what is not a message is not answered, and of nothing nothing can be altered
    have hsilent : b.reply code request = [] := by
      have hunread : Message.decode? b.payload.length request = none := if_neg hrequest
      rw [Context.reply, Session.answer, hunread]
      rfl
    rw [hsilent, List.length_nil, List.length_eq_zero_iff] at hsame
    rw [hsame, hsilent] at hother
    exact hother rfl

/-- What comes of an exchange between any two participants that agree on the length of the payload.
It succeeds just when each knows the other, they are not the same, and both are in the same round;
it is fatal just when the one that dialed knows the other but is not known to it; in every other
case it may be tried again. If on the way any byte of the payload of the request or of the response
is altered, it does not succeed. -/
theorem handshake_decided (self other : Uuid) (group otherGroup : List Uuid) (payloadLength : Nat)
    (wanted code : UInt8) :
    let a := Context.of self group payloadLength
    let b := Context.of other otherGroup payloadLength
    let agreed := other ∈ a.participants ∧ self ∈ b.participants ∧ self ≠ other ∧ wanted = code
    let shunned := other ∈ a.participants ∧ self ∉ b.participants
    (∀ u, handshake a b wanted code = .ok u ↔ u = other ∧ agreed) ∧
    ((∃ o : Objection, handshake a b wanted code = .error (.objection o) ∧ o.isFatal = true) ↔
      shunned) ∧
    ((∃ o : Objection, handshake a b wanted code = .error (.objection o) ∧ o.isFatal = false) ↔
      ¬ agreed ∧ ¬ shunned) ∧
    (∀ request response, AltersPayload (a.request wanted).encode request →
      response.length = (b.reply code request).length →
      response.take 17 = (b.reply code request).take 17 →
      ∀ u, Attempt.verdict a response ≠ .ok u) ∧
    ∀ request response, AltersPayload (b.reply code request) response →
      ∀ u, Attempt.verdict a response ≠ .ok u := by
  intro a b agreed shunned
  have hpayload : a.payload = b.payload := rfl
  have hself : a.self = self := rfl
  have hother : b.self = other := rfl
  refine ⟨?_, ?_, ?_, ?_, ?_⟩
  · intro u
    rw [handshake_eq hpayload, hself, hother]
    split_ifs <;> simp_all [agreed, eq_comm]
  · rw [handshake_eq hpayload, hself, hother]
    split_ifs <;> simp_all [shunned, Objection.isFatal]
  · rw [handshake_eq hpayload, hself, hother]
    split_ifs <;> simp_all [agreed, shunned, Objection.isFatal]
  · intro request response haltered
    exact verdict_of_altered_request hpayload haltered
  · intro request response haltered
    exact verdict_of_altered_response hpayload haltered

end BeaconMesh.Round
