import Courier.Duration

/-!
Spans of time as people write them: numbers with units, one after the other, with blanks anywhere
but inside a unit. A number may have a decimal fraction, which has to come out as whole nanoseconds
or, from hours on, as whole seconds. Zero needs no unit. Every intermediate result has to fit a
word.
-/

namespace Courier
namespace Duration

inductive TimeUnit
  | nanosecond
  | microsecond
  | millisecond
  | second
  | minute
  | hour
  | day
  | week
  | month
  | year
  deriving DecidableEq, Repr

namespace TimeUnit

def spellings : List (TimeUnit × List String) :=
  [(.nanosecond, ["nanos", "nsec", "ns"]), (.microsecond, ["usec", "us", "µs"]),
   (.millisecond, ["millis", "msec", "ms"]), (.second, ["seconds", "second", "secs", "sec", "s"]),
   (.minute, ["minutes", "minute", "min", "mins", "m"]),
   (.hour, ["hours", "hour", "hrs", "hr", "h"]), (.day, ["days", "day", "d"]),
   (.week, ["weeks", "week", "wks", "wk", "w"]), (.month, ["months", "month", "M"]),
   (.year, ["years", "year", "yrs", "yr", "y"])]

def ofName? (name : String) : Option TimeUnit :=
  (spellings.find? fun row => row.2.contains name).map (·.1)

/-- Nanoseconds in a unit below the second. -/
def nanos? : TimeUnit → Option Nat
  | .nanosecond => some 1
  | .microsecond => some 1000
  | .millisecond => some 1000000
  | _ => none

/-- Seconds in a unit from the second on. A month has 30.44 days and a year 365.25. -/
def seconds : TimeUnit → Nat
  | .minute => 60
  | .hour => 3600
  | .day => 86400
  | .week => 604800
  | .month => 2630016
  | .year => 31557600
  | _ => 1

end TimeUnit

/-- The decimal fraction `numerator / denominator`. -/
structure Fraction where
  numerator : Nat := 0
  denominator : Nat := 1
  deriving DecidableEq, Repr

def inWord? (n : Nat) : Option Nat := if n < Word.size then some n else none

/-- Whole seconds and nanoseconds that are added to a span. -/
structure Part where
  seconds : Nat := 0
  nanos : Nat := 0
  deriving DecidableEq, Repr

def wholePart? (n : Nat) (u : TimeUnit) : Option Part :=
  match u.nanos? with
  | some scale => (inWord? (n * scale)).map fun nanos => { nanos }
  | none => (inWord? (n * u.seconds)).map fun seconds => { seconds }

/-- The fraction of `scale`, if that is a whole number. -/
def Fraction.of? (f : Fraction) (scale : Nat) : Option Nat :=
  inWord? (f.numerator * scale) >>= fun n =>
    if n % f.denominator = 0 then some (n / f.denominator) else none

/-- The fraction of a number with its unit, if that can have one. -/
def fractionPart? (f : Fraction) (u : TimeUnit) : Option Part :=
  let nanosOf (scale : Nat) : Option Part := (f.of? scale).map fun nanos => { nanos }
  match u with
  | .nanosecond => none
  | .microsecond => nanosOf 1000
  | .millisecond => nanosOf 1000000
  | .second => nanosOf 1000000000
  | .minute => nanosOf 60000000000
  | u => (f.of? u.seconds).map fun seconds => { seconds }

def plus? (sum : Duration) (p : Part) : Option Duration := do
  let nanos ← inWord? (sum.subsecond + p.nanos)
  let _ ← inWord? (sum.seconds + p.seconds + nanos / 1000000000)
  return ⟨sum.nanos + 1000000000 * p.seconds + p.nanos⟩

def span? (n : Nat) (f : Option Fraction) (u : TimeUnit) (sum : Duration) : Option Duration := do
  let sum ← wholePart? n u >>= plus? sum
  match f with
  | some f => fractionPart? f u >>= plus? sum
  | none => return sum

/-- White space outside the letters of a unit. -/
def isSpace (c : Char) : Bool :=
  let n := c.toNat
  (9 ≤ n && n ≤ 13) || n = 0x20 || n = 0x85 || n = 0xa0 || n = 0x1680 ||
    (0x2000 ≤ n && n ≤ 0x200a) || n = 0x2028 || n = 0x2029 || n = 0x202f || n = 0x205f || n = 0x3000

def isUnitLetter (c : Char) : Bool := c.isAlpha || c = 'µ'

def digit? (c : Char) : Option Nat := if c.isDigit then some (c.toNat - '0'.toNat) else none

/-- What a text of time spans is being read as. -/
inductive Reading
  | between
  | whole (n : Nat)
  | fraction (n : Nat) (f : Fraction)
  /-- In a unit, whose letters are reversed. -/
  | unit (n : Nat) (f : Option Fraction) (letters : List Char)

def endUnit? (n : Nat) (f : Option Fraction) (letters : List Char) (sum : Duration) :
    Option Duration :=
  TimeUnit.ofName? (String.ofList letters.reverse) >>= fun u => span? n f u sum

def addDigit? (n d : Nat) : Option Nat := inWord? (10 * n) >>= fun n => inWord? (n + d)

def Fraction.addDigit? (f : Fraction) (d : Nat) : Option Fraction := do
  let denominator ← inWord? (10 * f.denominator)
  let numerator ← Duration.addDigit? f.numerator d
  return { numerator, denominator }

/-- Reads on, with the sum of the spans before. -/
def readSpans? : Reading → Duration → List Char → Option Duration
  | .between, sum, [] => some sum
  | .unit n f letters, sum, [] => endUnit? n f letters sum
  | _, _, [] => none
  | .between, sum, c :: rest =>
      match digit? c with
      | some d => readSpans? (.whole d) sum rest
      | none => if isSpace c then readSpans? .between sum rest else none
  | .whole n, sum, c :: rest =>
      match digit? c with
      | some d => addDigit? n d >>= fun n => readSpans? (.whole n) sum rest
      | none =>
          if isSpace c then readSpans? (.whole n) sum rest
          else if isUnitLetter c then readSpans? (.unit n none [c]) sum rest
          else if c = '.' then readSpans? (.fraction n {}) sum rest
          else none
  | .fraction n f, sum, c :: rest =>
      match digit? c with
      | some d => f.addDigit? d >>= fun f => readSpans? (.fraction n f) sum rest
      | none =>
          if isSpace c then readSpans? (.fraction n f) sum rest
          else if isUnitLetter c && f.denominator ≠ 1 then
            readSpans? (.unit n (some f) [c]) sum rest
          else none
  | .unit n f letters, sum, c :: rest =>
      match digit? c with
      | some d => endUnit? n f letters sum >>= fun sum => readSpans? (.whole d) sum rest
      | none =>
          if isSpace c then endUnit? n f letters sum >>= fun sum => readSpans? .between sum rest
          else if isUnitLetter c then readSpans? (.unit n f (c :: letters)) sum rest
          else none

def ofText? (s : String) : Option Duration :=
  if s = "0" then some .zero
  else if s.toList.all isSpace then none
  else readSpans? .between .zero s.toList

end Duration
end Courier
