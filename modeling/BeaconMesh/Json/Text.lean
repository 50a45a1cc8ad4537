import BeaconMesh.Text.Numeral

/-!
The text of JSON strings: writing a text between the quotes, and reading back what stands there.
-/

set_option autoImplicit false
set_option relaxedAutoImplicit false

namespace BeaconMesh.Json

def unitDigits (n : Nat) : List Char :=
  [Text.digitChar (n / 4096 % 16), Text.digitChar (n / 256 % 16), Text.digitChar (n / 16 % 16),
    Text.digitChar (n % 16)]

/-- The form of a character inside a string; only what must be escaped is. -/
def escapeChar (c : Char) : List Char :=
  if c = '"' ∨ c = '\\' then ['\\', c]
  else if c = '\x08' then ['\\', 'b']
  else if c = '\t' then ['\\', 't']
  else if c = '\n' then ['\\', 'n']
  else if c = '\x0c' then ['\\', 'f']
  else if c = '\r' then ['\\', 'r']
  else if c.toNat < 0x20 then '\\' :: 'u' :: unitDigits c.toNat
  else [c]

def escape (cs : List Char) : List Char := cs.flatMap escapeChar

def shortEscape? (c : Char) : Option Char :=
  if c = '"' ∨ c = '\\' ∨ c = '/' then some c
  else if c = 'b' then some '\x08'
  else if c = 't' then some '\t'
  else if c = 'n' then some '\n'
  else if c = 'f' then some '\x0c'
  else if c = 'r' then some '\r'
  else none

def unitValue? (a b c d : Char) : Option Nat := do
  let a ← Text.digitValue? 16 a
  let b ← Text.digitValue? 16 b
  let c ← Text.digitValue? 16 c
  let d ← Text.digitValue? 16 d
  return ((a * 16 + b) * 16 + c) * 16 + d

/-- Takes the inside of a string up to its closing quote, leaving escapes as they are. -/
def scanString : List Char → Option (List Char × List Char)
  | [] => none
  | '"' :: rest => some ([], rest)
  | '\\' :: 'u' :: a :: b :: c :: d :: rest =>
    if (unitValue? a b c d).isSome then
      (scanString rest).map fun (inside, rest) => ('\\' :: 'u' :: a :: b :: c :: d :: inside, rest)
    else none
  | '\\' :: c :: rest =>
    if (shortEscape? c).isSome then
      (scanString rest).map fun (inside, rest) => ('\\' :: c :: inside, rest)
    else none
  | c :: rest =>
    if c.toNat < 0x20 ∨ c = '\\' then none
    else (scanString rest).map fun (inside, rest) => (c :: inside, rest)

/-- The text that the inside of a string stands for; half of a surrogate pair stands for none. -/
def unescape : List Char → Option (List Char)
  | [] => some []
  | '\\' :: 'u' :: a :: b :: c :: d :: rest =>
    match unitValue? a b c d with
    | none => none
    | some high =>
      if high < 0xd800 ∨ 0xdfff < high then (unescape rest).map (Char.ofNat high :: ·)
      else if 0xdc00 ≤ high then none
      else
        match rest with
        | '\\' :: 'u' :: a :: b :: c :: d :: rest =>
          match unitValue? a b c d with
          | none => none
          | some low =>
            if 0xdc00 ≤ low ∧ low ≤ 0xdfff then
              (unescape rest).map
                (Char.ofNat (0x10000 + (high - 0xd800) * 0x400 + (low - 0xdc00)) :: ·)
            else none
        | _ => none
  | '\\' :: c :: rest =>
    match shortEscape? c with
    | none => none
    | some c => (unescape rest).map (c :: ·)
  | c :: rest => (unescape rest).map (c :: ·)

end BeaconMesh.Json
