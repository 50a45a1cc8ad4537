import BeaconMesh.Peer.Identifier
import BeaconMesh.Quit.Basic
import BeaconMesh.Round.Config
import BeaconMesh.Time.Basic

/-!
What can go wrong in a round, and whether it ends the round.
-/

set_option autoImplicit false
set_option relaxedAutoImplicit false

namespace BeaconMesh.Round

/-- Why an answer, though it can be read, does not count as a success. -/
inductive Objection where
  | unknownParticipant (sender : Uuid)
  | corruptedPayload (sender : Uuid)
  | outcome (sender : Uuid) (outcome : Outcome)
  | unknownCode (sender : Uuid) (code : UInt8)
  deriving DecidableEq

def Objection.message : Objection → String
  | .unknownParticipant sender => "response from unknown participant " ++ sender.text
  | .corruptedPayload sender => "corrupted payload from " ++ sender.text
  | .outcome sender answer => sender.text ++ " answered " ++ answer.name
  | .unknownCode sender code =>
    sender.text ++ " answered unknown code 0x" ++ Bytes.Hex.encode [code]

/-- Whether an objection makes the whole round void: only another round or one's own name is no
reason to give up. -/
def Objection.isFatal : Objection → Bool
  | .unknownParticipant _ => false
  | .corruptedPayload _ => true
  | .outcome _ .wrongSelfReference => false
  | .outcome _ .wrongGeneration => false
  | .outcome _ _ => true
  | .unknownCode _ _ => true

inductive Fault where
  | invalidRound (round : Nat)
  | wrongLength (expected got : Nat)
  | identifier (fault : PeerIdentifier.Fault)
  | objection (objection : Objection)
  | streamClosed
  | alreadyRaised
  | cancelled
  | timeout (limit : Duration)
  | connection (cause : String)
  deriving DecidableEq

namespace Fault

def isFatal : Fault → Bool
  | .objection o => o.isFatal
  | .streamClosed => true
  | _ => false

def message : Fault → String
  | .invalidRound round =>
    "invalid round number " ++ Text.decimal round ++ ": must be between 0 and 9"
  | .wrongLength expected got =>
    "invalid message: expected " ++ Text.decimal expected ++ " bytes, got " ++ Text.decimal got
  | .identifier fault => "invalid message: " ++ fault.message
  | .objection o =>
    (if o.isFatal then "fatal protocol error: " else "non-fatal protocol error: ")
      ++ o.message
  | .streamClosed =>
    "fatal protocol error: peer availability stream closed before the round completed"
  | .alreadyRaised => QuitSignal.alreadyRaised
  | .cancelled => "cancelled by quit signal"
  | .timeout limit => "round timeout after " ++ limit.text
  | .connection cause => "IO error: " ++ cause

end Fault

/-- Reads a message with a payload of the given length; all of the bytes must belong to it. -/
def Message.decode (payloadLength : Nat) (bytes : Bytes) : Except Fault Message :=
  match decode? payloadLength bytes with
  | some m => .ok m
  | none => .error (.wrongLength (lengthFor payloadLength) bytes.length)

end BeaconMesh.Round
