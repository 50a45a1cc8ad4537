import BeaconMesh.Text.Numeral

/-!
Socket addresses: an IP address of either version with a port. Version 6 text shortens the first
of the longest runs of at least two zero groups, and shows a mapped version 4 address as such.
-/

set_option autoImplicit false
set_option relaxedAutoImplicit false

namespace BeaconMesh.Net

structure Ipv4 where
  a : UInt8
  b : UInt8
  c : UInt8
  d : UInt8
  deriving DecidableEq, Repr, Inhabited

structure Ipv6 where
  groups : List UInt16
  length_groups : groups.length = 8
  deriving DecidableEq, Repr

inductive SocketAddress where
  | v4 (address : Ipv4) (port : UInt16)
  | v6 (address : Ipv6) (port : UInt16) (scope : UInt32)
  deriving DecidableEq, Repr

def Ipv4.text (ip : Ipv4) : String :=
  Text.decimal ip.a.toNat ++ "." ++ Text.decimal ip.b.toNat ++ "." ++ Text.decimal ip.c.toNat
    ++ "." ++ Text.decimal ip.d.toNat

namespace Ipv6

def mapped? (ip : Ipv6) : Option Ipv4 :=
  if ip.groups.take 6 = [0, 0, 0, 0, 0, 0xffff] then
    let high := ip.groups.getD 6 0
    let low := ip.groups.getD 7 0
    some ⟨(high >>> 8).toUInt8, high.toUInt8, (low >>> 8).toUInt8, low.toUInt8⟩
  else none

def leadingZeros : List UInt16 → Nat
  | [] => 0
  | g :: rest => if g = 0 then leadingZeros rest + 1 else 0

/-- The start and the length of the first of the longest runs of zero groups, from `start` on. -/
def longestZeros : Nat → List UInt16 → Nat × Nat
  | start, [] => (start, 0)
  | start, g :: rest =>
    let here := leadingZeros (g :: rest)
    let later := longestZeros (start + 1) rest
    if later.2 ≤ here then (start, here) else later

def groupsText (groups : List UInt16) : String :=
  ":".intercalate (groups.map fun g => Text.hexadecimal g.toNat)

def text (ip : Ipv6) : String :=
  match ip.mapped? with
  | some v4 => "::ffff:" ++ v4.text
  | none =>
    let (start, length) := longestZeros 0 ip.groups
    if 2 ≤ length then
      groupsText (ip.groups.take start) ++ "::" ++ groupsText (ip.groups.drop (start + length))
    else groupsText ip.groups

end Ipv6

namespace SocketAddress

def port : SocketAddress → UInt16
  | .v4 _ port => port
  | .v6 _ port _ => port

def hostText : SocketAddress → String
  | .v4 ip _ => ip.text
  | .v6 ip _ _ => ip.text

/-- The text of the address; a scope of zero is not shown. -/
def text : SocketAddress → String
  | .v4 ip port => ip.text ++ ":" ++ Text.decimal port.toNat
  | .v6 ip port scope =>
    let zone := if scope = 0 then "" else "%" ++ Text.decimal scope.toNat
    "[" ++ ip.text ++ zone ++ "]:" ++ Text.decimal port.toNat

end SocketAddress

end BeaconMesh.Net
