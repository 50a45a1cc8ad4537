import BeaconMesh.Net.Address

/-!
Reading socket addresses. Every reader takes characters from the front of a text and gives what
it read with the rest, or nothing.
-/

set_option autoImplicit false
set_option relaxedAutoImplicit false

namespace BeaconMesh.Net

abbrev Reader (α : Type) := List Char → Option (α × List Char)

def readChar (c : Char) : List Char → Option (List Char)
  | x :: rest => if x = c then some rest else none
  | [] => none

def digitsSpan (radix : Nat) : List Char → List Nat × List Char
  | [] => ([], [])
  | c :: rest =>
    match Text.digitValue? radix c with
    | none => ([], c :: rest)
    | some d => (d :: (digitsSpan radix rest).1, (digitsSpan radix rest).2)

def ofDigits (radix : Nat) (ds : List Nat) : Nat := ds.foldl (fun n d => n * radix + d) 0

/-- Reads a number of at most three digits below 256 without leading zeros. -/
def readOctet : Reader UInt8 := fun cs =>
  let (ds, rest) := digitsSpan 10 cs
  let n := ofDigits 10 ds
  if ds.isEmpty ∨ 3 < ds.length ∨ (ds.head? = some 0 ∧ 1 < ds.length) ∨ 255 < n then none
  else some (UInt8.ofNat n, rest)

def readGroup : Reader UInt16 := fun cs =>
  let (ds, rest) := digitsSpan 16 cs
  if ds.isEmpty ∨ 4 < ds.length then none else some (UInt16.ofNat (ofDigits 16 ds), rest)

def readBounded (bound : Nat) : Reader Nat := fun cs =>
  let (ds, rest) := digitsSpan 10 cs
  let n := ofDigits 10 ds
  if ds.isEmpty ∨ bound < n then none else some (n, rest)

def readIpv4 : Reader Ipv4 := fun cs => do
  let (a, cs) ← readOctet cs
  let (b, cs) ← readOctet (← readChar '.' cs)
  let (c, cs) ← readOctet (← readChar '.' cs)
  let (d, cs) ← readOctet (← readChar '.' cs)
  return (⟨a, b, c, d⟩, cs)

def Ipv4.groups (ip : Ipv4) : List UInt16 :=
  [(ip.a.toUInt16 <<< 8) ||| ip.b.toUInt16, (ip.c.toUInt16 <<< 8) ||| ip.d.toUInt16]

structure GroupRun where
  groups : List UInt16
  endsInIpv4 : Bool
  rest : List Char

/-- Reads groups with colons between them while there are some, at most `room` of them. -/
def readGroups (first : Bool) : Nat → List Char → GroupRun
  | 0, cs => ⟨[], false, cs⟩
  | room + 1, cs =>
    let start := if first then some cs else readChar ':' cs
    match start with
    | none => ⟨[], false, cs⟩
    | some inner =>
      match if room = 0 then none else readIpv4 inner with
      | some (ip, rest) => ⟨ip.groups, true, rest⟩
      | none =>
        match readGroup inner with
        | none => ⟨[], false, cs⟩
        | some (g, rest) =>
          let run := readGroups false room rest
          ⟨g :: run.groups, run.endsInIpv4, run.rest⟩

/-- Reads a version 6 address; two colons stand for at least one zero group. -/
def readIpv6 : Reader Ipv6 := fun cs =>
  let head := readGroups true 8 cs
  if full : head.groups.length = 8 then some (⟨head.groups, full⟩, head.rest)
  else if head.endsInIpv4 then none
  else
    match (readChar ':' head.rest).bind (readChar ':') with
    | none => none
    | some cs =>
      let tail := readGroups true (7 - head.groups.length) cs
      let zeros := List.replicate (8 - head.groups.length - tail.groups.length) 0
      let groups := head.groups ++ zeros ++ tail.groups
      if full : groups.length = 8 then some (⟨groups, full⟩, tail.rest) else none

def readPort : Reader UInt16 := fun cs => do
  let (n, rest) ← readBounded 65535 (← readChar ':' cs)
  return (UInt16.ofNat n, rest)

/-- Reads a percent sign and a scope; without them the scope is zero. -/
def readScope (cs : List Char) : UInt32 × List Char :=
  match (readChar '%' cs).bind (readBounded 4294967295) with
  | some (n, rest) => (UInt32.ofNat n, rest)
  | none => (0, cs)

def readSocketV4 : Reader SocketAddress := fun cs => do
  let (ip, cs) ← readIpv4 cs
  let (port, cs) ← readPort cs
  return (.v4 ip port, cs)

def readSocketV6 : Reader SocketAddress := fun cs => do
  let (ip, cs) ← readIpv6 (← readChar '[' cs)
  let (scope, cs) := readScope cs
  let (port, cs) ← readPort (← readChar ']' cs)
  return (.v6 ip port scope, cs)

def SocketAddress.ofChars? (cs : List Char) : Option SocketAddress :=
  match (readSocketV4 cs).or (readSocketV6 cs) with
  | some (address, []) => some address
  | _ => none

def addressFault : String := "invalid socket address syntax"

end BeaconMesh.Net
