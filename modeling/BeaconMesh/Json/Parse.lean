import BeaconMesh.Json.Value

/-!
Reading JSON documents. Every reader takes characters from the front of a text and gives what it
read with the rest, or nothing.
-/

set_option autoImplicit false
set_option relaxedAutoImplicit false

namespace BeaconMesh.Json

def skipBlank (cs : List Char) : List Char :=
  cs.dropWhile fun c => c == ' ' || c == '\t' || c == '\n' || c == '\r'

def scanWord : List Char → List Char → Option (List Char)
  | [], rest => some rest
  | w :: word, c :: rest => if w = c then scanWord word rest else none
  | _ :: _, [] => none

def scanDigits (cs : List Char) : Option (List Char × List Char) :=
  let ds := cs.takeWhile Char.isDigit
  if ds.isEmpty then none else some (ds, cs.dropWhile Char.isDigit)

/-- Takes the digits before the point: a lone zero, or digits that begin with another. -/
def scanInteger : List Char → Option (List Char × List Char)
  | '0' :: rest => if (rest.takeWhile Char.isDigit).isEmpty then some (['0'], rest) else none
  | cs => scanDigits cs

def scanFraction : List Char → Option (List Char × List Char)
  | '.' :: rest => (scanDigits rest).map fun (ds, rest) => ('.' :: ds, rest)
  | cs => some ([], cs)

def scanSign : List Char → List Char × List Char
  | c :: rest => if c = '+' ∨ c = '-' then ([c], rest) else ([], c :: rest)
  | [] => ([], [])

def scanExponent : List Char → Option (List Char × List Char)
  | c :: rest =>
    if c = 'e' ∨ c = 'E' then
      let (sign, rest) := scanSign rest
      (scanDigits rest).map fun (ds, rest) => (c :: (sign ++ ds), rest)
    else some ([], c :: rest)
  | [] => some ([], [])

def scanUnsigned (cs : List Char) : Option (List Char × List Char) := do
  let (integer, cs) ← scanInteger cs
  let (fraction, cs) ← scanFraction cs
  let (exponent, cs) ← scanExponent cs
  return (integer ++ fraction ++ exponent, cs)

def scanNumber : List Char → Option (List Char × List Char)
  | '-' :: rest => (scanUnsigned rest).map fun (literal, rest) => ('-' :: literal, rest)
  | cs => scanUnsigned cs

mutual

def readValue : Nat → List Char → Option (Value × List Char)
  | 0, _ => none
  | fuel + 1, cs =>
    match cs with
    | [] => none
    | c :: rest =>
      if c = 'n' then (scanWord "ull".toList rest).map (Value.null, ·)
      else if c = 't' then (scanWord "rue".toList rest).map (Value.bool true, ·)
      else if c = 'f' then (scanWord "alse".toList rest).map (Value.bool false, ·)
      else if c = '"' then (scanString rest).map fun (inside, rest) => (.string inside, rest)
      else if c = '[' then
        match skipBlank rest with
        | ']' :: rest => some (.array [], rest)
        | rest => (readItems fuel rest).map fun (items, rest) => (.array items, rest)
      else if c = '\x7b' then
        match skipBlank rest with
        | '\x7d' :: rest => some (.object [], rest)
        | rest => (readMembers fuel rest).map fun (members, rest) => (.object members, rest)
      else (scanNumber (c :: rest)).map fun (literal, rest) => (.number literal, rest)

def readItems : Nat → List Char → Option (List Value × List Char)
  | 0, _ => none
  | fuel + 1, cs =>
    match readValue fuel (skipBlank cs) with
    | none => none
    | some (v, rest) =>
      match skipBlank rest with
      | ']' :: rest => some ([v], rest)
      | ',' :: rest => (readItems fuel rest).map fun (items, rest) => (v :: items, rest)
      | _ => none

def readMembers : Nat → List Char → Option (List (List Char × Value) × List Char)
  | 0, _ => none
  | fuel + 1, cs =>
    match skipBlank cs with
    | '"' :: cs =>
      match scanString cs with
      | none => none
      | some (name, cs) =>
        match skipBlank cs with
        | ':' :: cs =>
          match readValue fuel (skipBlank cs) with
          | none => none
          | some (v, rest) =>
            match skipBlank rest with
            | '\x7d' :: rest => some ([(name, v)], rest)
            | ',' :: rest =>
              (readMembers fuel rest).map fun (members, rest) => ((name, v) :: members, rest)
            | _ => none
        | _ => none
    | _ => none

end

/-- The value that a whole text stands for, white space around it allowed. -/
def Value.ofText? (s : String) : Option Value :=
  let cs := s.toList
  match readValue (2 * cs.length + 2) (skipBlank cs) with
  | some (v, rest) => if (skipBlank rest).isEmpty then some v else none
  | none => none

end BeaconMesh.Json
