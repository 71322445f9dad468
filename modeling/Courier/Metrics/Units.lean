import Courier.Duration
import Courier.Text.Decimal

/-!
Counted things as people read them: bytes in powers of 1024, counts in powers of 1000, means in
milliseconds. A number that is divided by its unit shows one place.
-/

namespace Courier
namespace Metrics
namespace Units

/-- A word divided by its unit, with one place. -/
def inUnit (n unit : Nat) : String := Text.fixed 1 (n.toUInt64.toFloat / unit.toUInt64.toFloat)

def bytes (n : Nat) : String :=
  if Nat.pow 1024 3 ≤ n then inUnit n (Nat.pow 1024 3) ++ " GB"
  else if Nat.pow 1024 2 ≤ n then inUnit n (Nat.pow 1024 2) ++ " MB"
  else if 1024 ≤ n then inUnit n 1024 ++ " KB"
  else toString n ++ " B"

def byteRate (perSecond : Float) : String :=
  if 1048576.0 ≤ perSecond then Text.fixed 1 (perSecond / 1048576.0) ++ " MB/s"
  else if 1024.0 ≤ perSecond then Text.fixed 1 (perSecond / 1024.0) ++ " KB/s"
  else Text.fixed 0 perSecond ++ " B/s"

def count (n : Nat) : String :=
  if Nat.pow 1000 2 ≤ n then inUnit n (Nat.pow 1000 2) ++ "M"
  else if 1000 ≤ n then inUnit n 1000 ++ "K"
  else toString n

def millis (d : Duration) : String := Text.fixed 1 (d.toSeconds * 1000.0) ++ "ms"

end Units
end Metrics
end Courier
