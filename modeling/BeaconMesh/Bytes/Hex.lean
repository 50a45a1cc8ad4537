import BeaconMesh.Bytes.Basic
import BeaconMesh.Text.Quoted

/-!
Hexadecimal text of byte strings: two lower-case digits for a byte when written, digits of
either case when read. Reading judges the UTF-8 bytes of the text, not its characters.
-/

set_option autoImplicit false
set_option relaxedAutoImplicit false

namespace BeaconMesh.Bytes.Hex

def value? (b : UInt8) : Option Nat :=
  let n := b.toNat
  if 48 ≤ n ∧ n ≤ 57 then some (n - 48)
  else if 97 ≤ n ∧ n ≤ 102 then some (n - 87)
  else if 65 ≤ n ∧ n ≤ 70 then some (n - 55)
  else none

def encodeChars : Bytes → List Char
  | [] => []
  | b :: bs =>
    Text.digitChar (b.toNat / 16) :: Text.digitChar (b.toNat % 16) :: encodeChars bs

def encode (bs : Bytes) : String := String.ofList (encodeChars bs)

inductive Fault where
  | oddLength
  | badDigit (byte : UInt8) (position : Nat)
  | wrongLength
  deriving DecidableEq, Repr

/-- What is wrong with a hexadecimal text, in words; a bad byte is shown as the character of its
value. -/
def Fault.message : Fault → String
  | .oddLength => "Odd number of digits"
  | .badDigit byte position =>
    "Invalid character " ++ Text.quotedChar (Char.ofNat byte.toNat) ++ " at position "
      ++ Text.decimal position
  | .wrongLength => "Invalid string length"

def decodeFrom (position : Nat) : Bytes → Except Fault Bytes
  | [] => .ok []
  | [_] => .error .oddLength
  | high :: low :: rest =>
    match value? high, value? low with
    | none, _ => .error (.badDigit high position)
    | some _, none => .error (.badDigit low (position + 1))
    | some h, some l =>
      match decodeFrom (position + 2) rest with
      | .ok bs => .ok (UInt8.ofNat (16 * h + l) :: bs)
      | .error fault => .error fault

/-- The byte string that a hexadecimal text stands for; an odd length is noticed first. -/
def decode (text : String) : Except Fault Bytes :=
  let bytes := ofString text
  if bytes.length % 2 = 1 then .error .oddLength else decodeFrom 0 bytes

end BeaconMesh.Bytes.Hex
