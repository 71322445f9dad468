import Courier.Word

/-!
Spans of time, counted in nanoseconds. The short text of a span is its value in the largest unit
among s, ms, µs and ns that is not greater than it, without trailing zeros.
-/

namespace Courier

structure Duration where
  nanos : Nat
  deriving DecidableEq, Repr

namespace Duration

instance : Inhabited Duration := ⟨⟨0⟩⟩

def zero : Duration := ⟨0⟩

def ofSeconds (n : Nat) : Duration := ⟨n * 1000000000⟩

def ofMillis (n : Nat) : Duration := ⟨n * 1000000⟩

def ofMicros (n : Nat) : Duration := ⟨n * 1000⟩

def seconds (d : Duration) : Nat := d.nanos / 1000000000

def subsecond (d : Duration) : Nat := d.nanos % 1000000000

def millis (d : Duration) : Nat := d.nanos / 1000000

def micros (d : Duration) : Nat := d.nanos / 1000

def toSeconds (d : Duration) : Float :=
  d.seconds.toUInt64.toFloat + d.subsecond.toUInt64.toFloat / 1000000000.0

/-- The digits of `n` after the point, for a unit of `10 ^ places`, without trailing zeros. -/
def fraction (places n : Nat) : String :=
  let digits := (toString (Nat.pow 10 places + n)).toList.drop 1
  let kept := (digits.reverse.dropWhile (· == '0')).reverse
  if kept.isEmpty then "" else "." ++ String.ofList kept

def text (d : Duration) : String :=
  if 0 < d.seconds then toString d.seconds ++ fraction 9 d.subsecond ++ "s"
  else if 1000000 ≤ d.nanos then toString d.millis ++ fraction 6 (d.nanos % 1000000) ++ "ms"
  else if 1000 ≤ d.nanos then toString d.micros ++ fraction 3 (d.nanos % 1000) ++ "µs"
  else toString d.nanos ++ "ns"

end Duration
end Courier
