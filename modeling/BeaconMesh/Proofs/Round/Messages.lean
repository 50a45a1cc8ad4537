import BeaconMesh.Proofs.Bytes.Layout
import BeaconMesh.Round.Link
import Mathlib.Tactic.SplitIfs

/-!
What the two ends of a connection make of each other's messages: a message is read as it was
written, only a request for the round of the server is answered with success, and only an answer of
success counts.
-/

set_option autoImplicit false
set_option relaxedAutoImplicit false

namespace BeaconMesh.Round

theorem Message.length_encode (m : Message) :
    m.encode.length = Message.lengthFor m.payload.length := by
  have hsender : m.sender.bytes.length = 16 := m.sender.block.length_bytes
  rw [encode, List.length_append, List.length_cons, hsender, lengthFor]
  omega

theorem Message.decode?_encode (m : Message) :
    Message.decode? m.payload.length m.encode = some m := by
  have hsender : m.sender.bytes.length = 16 := m.sender.block.length_bytes
  have hleading : Block.leading 16 m.encode = m.sender.block :=
    Block.leading_append m.sender.block (m.code :: m.payload)
  have hcode : m.encode.drop 16 = m.code :: m.payload := List.drop_left' hsender
  have hpayload : m.encode.drop 17 = m.payload := by
    rw [show 17 = 16 + 1 from rfl, ← List.drop_drop, hcode]
    rfl
  rw [decode?, if_pos m.length_encode, hleading, hcode, hpayload]
  rfl

theorem Outcome.ofCode?_code (o : Outcome) : Outcome.ofCode? o.code = some o := by
  cases o <;> decide

theorem Message.encode_injective_of_length {a b : Message}
    (hpayload : a.payload.length = b.payload.length) (h : a.encode = b.encode) : a = b := by
  have ha := a.decode?_encode
  rw [hpayload, h, b.decode?_encode] at ha
  exact (Option.some.inj ha).symm

theorem Message.outcome_eq_of_encode_eq {c : Context} {outcome other : Outcome}
    (h : (c.response outcome).encode = (c.response other).encode) : outcome = other := by
  have hsame : c.response outcome = c.response other := encode_injective_of_length rfl h
  have hcode : outcome.code = other.code := congrArg Message.code hsame
  have hread := outcome.ofCode?_code
  rw [hcode, other.ofCode?_code] at hread
  exact (Option.some.inj hread).symm

theorem eq_of_code?_eq {round other : Nat} {code : UInt8} (h : code? round = some code)
    (h' : code? other = some code) : round = other := by
  unfold code? at h h'
  split at h
  · rename_i hround
    split at h'
    · rename_i hother
      have heq := congrArg UInt8.toNat (Option.some.inj (h.trans h'.symm))
      have hsmall : ∀ n ≤ highest, (UInt8.ofNat (0x30 + n)).toNat = 0x30 + n := by
        intro n hn
        rw [UInt8.toNat_ofNat']
        exact Nat.mod_eq_of_lt (by unfold highest at hn; omega)
      rw [hsmall round hround, hsmall other hother] at heq
      omega
    · cases h'
  · cases h

namespace Context

theorem mem_others {c : Context} {u : Uuid} : u ∈ c.others ↔ u ∈ c.participants ∧ u ≠ c.self := by
  rw [others, List.mem_filter, decide_eq_true_iff]

theorem code_of_judge_success {c : Context} {request : Message} {code : UInt8}
    (h : c.judge request code = .success) : request.code = code := by
  unfold judge at h
  split_ifs at h
  rename_i hcode
  exact Decidable.not_not.mp hcode

theorem interpret_response_ok {c d : Context} {outcome : Outcome} {u : Uuid}
    (h : c.interpret (d.response outcome) = .ok u) : u = d.self ∧ outcome = .success := by
  unfold interpret at h
  split_ifs at h
  rw [response, Outcome.ofCode?_code] at h
  cases outcome <;> cases h
  exact ⟨rfl, rfl⟩

end Context

theorem Attempt.verdict_response {c d : Context} (hpayload : c.payload.length = d.payload.length)
    {outcome : Outcome} {u : Uuid}
    (h : Attempt.verdict c (d.response outcome).encode = .ok u) :
    u = d.self ∧ outcome = .success := by
  have hread : Message.decode? c.payload.length (d.response outcome).encode
      = some (d.response outcome) := by
    rw [hpayload]
    exact (d.response outcome).decode?_encode
  rw [verdict, hread] at h
  cases hinterpret : c.interpret (d.response outcome) with
  | error objection =>
    simp only [hinterpret, Except.mapError] at h
    cases h
  | ok sender =>
    simp only [hinterpret, Except.mapError, Except.ok.injEq] at h
    obtain rfl := h
    exact Context.interpret_response_ok hinterpret

theorem Session.answer_request {c d : Context} (hpayload : c.payload.length = d.payload.length)
    (code wanted : UInt8) (s : Session) :
    ∃ outcome, (s.answer c code (d.request wanted).encode).written
        = s.written ++ (c.response outcome).encode ∧
      (outcome = .success → wanted = code) ∧
      ∀ received, (s.answer c code (d.request wanted).encode).stage ≠ .reading received := by
  have hread : Message.decode? c.payload.length (d.request wanted).encode
      = some (d.request wanted) := by
    rw [hpayload]
    exact (d.request wanted).decode?_encode
  refine ⟨c.judge (d.request wanted) code, ?_, Context.code_of_judge_success, ?_⟩
  · rw [answer, hread]
  · intro received
    rw [answer, hread]
    simp only
    split <;> simp

end BeaconMesh.Round
