import BeaconMesh.Json.Text

/-!
A JSON document as it is written: members keep their order, numbers their literal and strings
their escapes, so that a value is judged only by who asks for it.
-/

set_option autoImplicit false
set_option relaxedAutoImplicit false

namespace BeaconMesh.Json

/-- A value. A string is held as it stands between its quotes, and so is the name of a member. -/
inductive Value where
  | null
  | bool (b : Bool)
  | number (literal : List Char)
  | string (inside : List Char)
  | array (items : List Value)
  | object (members : List (List Char × Value))

instance : Inhabited Value := ⟨.null⟩

namespace Value

def ofText (s : String) : Value := .string (escape s.toList)

def ofNat (n : Nat) : Value := .number (Text.digits 10 n)

mutual

def render : Value → List Char
  | .null => "null".toList
  | .bool true => "true".toList
  | .bool false => "false".toList
  | .number literal => literal
  | .string inside => '"' :: (inside ++ ['"'])
  | .array items => '[' :: (renderItems items ++ [']'])
  | .object members => '\x7b' :: (renderMembers members ++ ['\x7d'])

def renderItems : List Value → List Char
  | [] => []
  | [v] => render v
  | v :: rest => render v ++ ',' :: renderItems rest

def renderMembers : List (List Char × Value) → List Char
  | [] => []
  | [(name, v)] => '"' :: (name ++ '"' :: ':' :: render v)
  | (name, v) :: rest => '"' :: (name ++ '"' :: ':' :: (render v ++ ',' :: renderMembers rest))

end

def text (v : Value) : String := String.ofList v.render

def text? : Value → Option String
  | .string inside => (unescape inside).map String.ofList
  | _ => none

/-- The value of a natural number not above a bound, written without sign, fraction or exponent. -/
def nat? (bound : Nat) : Value → Option Nat
  | .number literal =>
    if literal.all Char.isDigit then (Text.readNumber 10 bound literal).toOption else none
  | _ => none

def bool? : Value → Option Bool
  | .bool b => some b
  | _ => none

def named? : List (List Char × Value) → Option (List (String × Value))
  | [] => some []
  | (name, v) :: rest =>
    match unescape name, named? rest with
    | some name, some rest => some ((String.ofList name, v) :: rest)
    | _, _ => none

/-- The value of the only member with this name. -/
def member? (name : String) (members : List (String × Value)) : Option Value :=
  match members.filter fun m => m.1 == name with
  | [m] => some m.2
  | _ => none

end Value

end BeaconMesh.Json
