import BeaconMesh.Proofs.Round.Messages

/-!
The bytes of a message: for each length of the payload, the strings of one length and the messages
correspond, reading and writing being inverse to each other.
-/

set_option autoImplicit false
set_option relaxedAutoImplicit false

namespace BeaconMesh.Round

namespace Message

variable {n : Nat} {bytes : Bytes} {m : Message}

theorem decode_eq_ok_iff : decode n bytes = .ok m ↔ decode? n bytes = some m := by
  rw [decode]
  split
  · rename_i read hread
    rw [hread, Except.ok.injEq, Option.some.injEq]
  · rename_i hread
    rw [hread]
    simp

theorem decode_of_length_ne (h : bytes.length ≠ lengthFor n) :
    decode n bytes = .error (.wrongLength (lengthFor n) bytes.length) := by
  rw [decode, decode?, if_neg h]

theorem decode_encode (n : Nat) (m : Message) :
    decode n m.encode
      = if m.payload.length = n then .ok m
        else .error (.wrongLength (lengthFor n) (lengthFor m.payload.length)) := by
  split
  · rename_i hlength
    subst hlength
    exact decode_eq_ok_iff.mpr m.decode?_encode
  · rename_i hlength
    rw [← m.length_encode]
    apply decode_of_length_ne
    rw [m.length_encode, lengthFor, lengthFor]
    omega

end Message

theorem Attempt.verdict_eq (c : Context) (bytes : Bytes) :
    Attempt.verdict c bytes
      = (Message.decode c.payload.length bytes).bind fun response =>
          (c.interpret response).mapError .objection := by
  rw [verdict, Message.decode]
  cases Message.decode? c.payload.length bytes <;> rfl

theorem Session.answer_of_error {c : Context} {s : Session} {code : UInt8} {bytes : Bytes}
    {fault : Fault} (h : Message.decode c.payload.length bytes = .error fault) :
    s.answer c code bytes = { s with stage := .done (.error fault) } := by
  rw [Message.decode] at h
  cases hread : Message.decode? c.payload.length bytes with
  | some request =>
    rw [hread] at h
    cases h
  | none =>
    rw [hread] at h
    obtain rfl := Except.error.inj h
    rw [answer, hread]
    rfl

/-- Writes a message of its own: a request or an answer. -/
def Context.Builds (c : Context) (m : Message) : Prop :=
  (∃ code, m = c.request code) ∨ ∃ outcome, m = c.response outcome

theorem Context.Builds.payload {c : Context} {m : Message} (h : c.Builds m) :
    m.payload = c.payload := by
  rcases h with ⟨code, rfl⟩ | ⟨outcome, rfl⟩
  · rfl
  · rfl

end BeaconMesh.Round
