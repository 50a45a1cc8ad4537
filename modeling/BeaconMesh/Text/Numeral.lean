/-!
Numbers in positional notation: writing them with as few digits as possible, and reading them
with an optional plus sign, any number of leading zeros and an upper bound.
-/

set_option autoImplicit false
set_option relaxedAutoImplicit false

namespace BeaconMesh.Text

def digitChar (n : Nat) : Char := if n < 10 then Char.ofNat (48 + n) else Char.ofNat (87 + n)

def digitValue? (radix : Nat) (c : Char) : Option Nat :=
  let n := c.toNat
  let value :=
    if 48 ≤ n ∧ n ≤ 57 then some (n - 48)
    else if 97 ≤ n ∧ n ≤ 122 then some (n - 87)
    else if 65 ≤ n ∧ n ≤ 90 then some (n - 55)
    else none
  value.filter (· < radix)

/-- Puts the digits of a number in front of a text, for at most `fuel` digits. -/
def digitsOnto (radix : Nat) : Nat → Nat → List Char → List Char
  | 0, _, rest => rest
  | fuel + 1, n, rest =>
    let rest := digitChar (n % radix) :: rest
    if n / radix = 0 then rest else digitsOnto radix fuel (n / radix) rest

/-- The digits of a number in a radix between 2 and 16, without leading zeros. -/
def digits (radix n : Nat) : List Char := digitsOnto radix (n + 1) n []

def decimal (n : Nat) : String := String.ofList (digits 10 n)

def hexadecimal (n : Nat) : String := String.ofList (digits 16 n)

inductive NumeralFault where
  | empty
  | badDigit
  | tooLarge
  deriving DecidableEq, Repr

def NumeralFault.message : NumeralFault → String
  | .empty => "cannot parse integer from empty string"
  | .badDigit => "invalid digit found in string"
  | .tooLarge => "number too large to fit in target type"

/-- Reads digits after a number read so far; of two faults the one further left counts. -/
def readDigits (radix bound : Nat) : Nat → List Char → Except NumeralFault Nat
  | n, [] => .ok n
  | n, c :: rest =>
    match digitValue? radix c with
    | none => .error .badDigit
    | some d =>
      if bound < n * radix + d then .error .tooLarge
      else readDigits radix bound (n * radix + d) rest

/-- Reads a number not above the bound, with an optional plus sign before its digits. -/
def readNumber (radix bound : Nat) : List Char → Except NumeralFault Nat
  | [] => .error .empty
  | ['+'] => .error .badDigit
  | '+' :: rest => readDigits radix bound 0 rest
  | cs => readDigits radix bound 0 cs

end BeaconMesh.Text
