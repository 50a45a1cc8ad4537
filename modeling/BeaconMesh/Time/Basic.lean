import BeaconMesh.Text.Numeral

/-!
Spans and points of time, both counted in whole nanoseconds. The text of a span is in the largest
of the units s, ms, µs and ns that is not above it, with a decimal fraction that ends where its
zeros begin.
-/

set_option autoImplicit false
set_option relaxedAutoImplicit false

namespace BeaconMesh

structure Duration where
  nanos : Nat
  deriving DecidableEq, Repr, Inhabited

namespace Duration

def ofMillis (n : Nat) : Duration := ⟨n * 1000000⟩

def ofSecs (n : Nat) : Duration := ⟨n * 1000000000⟩

def toMillis (d : Duration) : Nat := d.nanos / 1000000

end Duration

/-- A point of time, in nanoseconds from the beginning of 1970. -/
structure Instant where
  nanos : Int
  deriving DecidableEq, Repr, Inhabited

namespace Instant

/-- Whole milliseconds since the epoch in 64 bits; zero for every time before it. -/
def unixMillis (t : Instant) : UInt64 := UInt64.ofNat (t.nanos.toNat / 1000000)

end Instant

def paddedDecimal (width n : Nat) : List Char :=
  let digits := Text.digits 10 n
  List.replicate (width - digits.length) '0' ++ digits

/-- A whole part, and behind a point the fraction with so many places, its last zeros left out. -/
def decimalFraction (whole fraction places : Nat) : String :=
  let digits := ((paddedDecimal places fraction).reverse.dropWhile (· == '0')).reverse
  if digits.isEmpty then Text.decimal whole
  else Text.decimal whole ++ "." ++ String.ofList digits

def Duration.text (d : Duration) : String :=
  if d.nanos ≥ 1000000000 then
    decimalFraction (d.nanos / 1000000000) (d.nanos % 1000000000) 9 ++ "s"
  else if d.nanos ≥ 1000000 then decimalFraction (d.nanos / 1000000) (d.nanos % 1000000) 6 ++ "ms"
  else if d.nanos ≥ 1000 then decimalFraction (d.nanos / 1000) (d.nanos % 1000) 3 ++ "µs"
  else Text.decimal d.nanos ++ "ns"

end BeaconMesh
