import Courier.Toml.Text
import Courier.Toml.Value

/-!
Numbers, dates and times in a TOML document. Only the value of an integer is kept. Underscores may
stand between two digits, and no decimal integer part begins with a zero that is not all of it.
-/

namespace Courier
namespace Toml
namespace Number

def isDigit (c : Char) : Bool := '0' ≤ c && c ≤ '9'

/-- Digits after a first one, each with at most one underscore before it. -/
def moreDigits (ok : Char → Bool) : List Char → List Char × List Char
  | '_' :: c :: rest =>
      if ok c then
        let (digits, rest) := moreDigits ok rest
        (c :: digits, rest)
      else ([], '_' :: c :: rest)
  | c :: rest =>
      if ok c then
        let (digits, rest) := moreDigits ok rest
        (c :: digits, rest)
      else ([], c :: rest)
  | [] => ([], [])

/-- At least one digit; underscores are left out. -/
def digits? (ok : Char → Bool) : Step (List Char)
  | c :: rest =>
      if ok c then
        let (digits, rest) := moreDigits ok rest
        some (c :: digits, rest)
      else none
  | [] => none

def sign : List Char → Bool × List Char
  | '-' :: rest => (true, rest)
  | '+' :: rest => (false, rest)
  | s => (false, s)

def whole? : Step (List Char)
  | '0' :: rest => some (['0'], rest)
  | s => digits? isDigit s

def valueOf (base : Nat) (digits : List Char) : Nat :=
  digits.foldl (fun n c => base * n + (Text.hexValue? c).getD 0) 0

/-- Integers have 64 bits, one of them for the sign. -/
def inRange? (n : Int) : Option Int :=
  if -(Nat.pow 2 63 : Nat) ≤ n && n < (Nat.pow 2 63 : Nat) then some n else none

def isOctal (c : Char) : Bool := '0' ≤ c && c ≤ '7'

def isBinary (c : Char) : Bool := c = '0' || c = '1'

def inBase? (base : Nat) (ok : Char → Bool) (s : List Char) : Option (Value × List Char) := do
  let (digits, rest) ← digits? ok s
  let n ← inRange? (valueOf base digits)
  return (.integer n, rest)

def integer? : Step Value
  | '0' :: 'x' :: rest => inBase? 16 (fun c => (Text.hexValue? c).isSome) rest
  | '0' :: 'o' :: rest => inBase? 8 isOctal rest
  | '0' :: 'b' :: rest => inBase? 2 isBinary rest
  | s => do
      let (negative, s) := sign s
      let (digits, rest) ← whole? s
      let n : Int := valueOf 10 digits
      let n ← inRange? (if negative then -n else n)
      return (.integer n, rest)

/-- From here on a binary64 number is infinite: half a unit above the largest finite one. -/
def overflow : Nat := Nat.pow 2 1024 - Nat.pow 2 970

/-- The number `digits · 10 ^ exponent` is too large for binary64. -/
def overflows (digits : List Char) (exponent : Int) : Bool :=
  let significant := digits.dropWhile (· == '0')
  let magnitude : Int := significant.length + exponent
  if significant.isEmpty || magnitude < 300 then false
  else if 320 < magnitude then true
  else
    let n := valueOf 10 significant
    if 0 ≤ exponent then overflow ≤ n * Nat.pow 10 exponent.toNat
    else overflow * Nat.pow 10 (-exponent).toNat ≤ n

/-- The exponent of a float, if one is written. -/
def exponent? : List Char → Option (Option Int × List Char)
  | c :: rest =>
      if c = 'e' || c = 'E' then do
        let (negative, s) := sign rest
        let (digits, rest) ← digits? isDigit s
        let n : Int := valueOf 10 digits
        return (some (if negative then -n else n), rest)
      else some (none, c :: rest)
  | [] => some (none, [])

/-- The digits after the point of a float, if one is written. -/
def fraction? : List Char → Option (Option (List Char) × List Char)
  | '.' :: rest => (digits? isDigit rest).map fun (digits, rest) => (some digits, rest)
  | s => some (none, s)

/-- A float has a fraction or an exponent. It may be too large only when it is negative. -/
def float? (s : List Char) : Option (Value × List Char) := do
  let (negative, s) := sign s
  let (digits, s) ← whole? s
  let (fraction, s) ← fraction? s
  let (exponent, rest) ← exponent? s
  if fraction.isNone && exponent.isNone then none
  else
    let places := fraction.getD []
    if !negative && overflows (digits ++ places) (exponent.getD 0 - places.length) then none
    else return (.float, rest)

def word? : List Char → Step Unit
  | [], s => some ((), s)
  | c :: cs, s => skip? c s >>= word? cs

def specialFloat? (s : List Char) : Option (Value × List Char) :=
  let (_, s) := sign s
  ((word? ['i', 'n', 'f'] s <|> word? ['n', 'a', 'n'] s)).map fun (_, rest) => (.float, rest)

/-- A number of two digits within bounds. -/
def twoDigits? (low high : Nat) : Step Nat
  | a :: b :: rest =>
      let n := valueOf 10 [a, b]
      if isDigit a && isDigit b && low ≤ n && n ≤ high then some (n, rest) else none
  | _ => none

def isLeap (year : Nat) : Bool := year % 4 = 0 && (year % 100 ≠ 0 || year % 400 = 0)

def daysIn (year month : Nat) : Nat :=
  if month = 2 then (if isLeap year then 29 else 28)
  else if [4, 6, 9, 11].contains month then 30
  else 31

def date? : List Char → Option (List Char)
  | a :: b :: c :: d :: '-' :: rest => do
      if !([a, b, c, d].all isDigit) then none
      else
        let (month, rest) ← twoDigits? 1 12 rest
        let rest ← skip? '-' rest
        let (day, rest) ← twoDigits? 1 31 rest
        if day ≤ daysIn (valueOf 10 [a, b, c, d]) month then some rest else none
  | _ => none

/-- What is left after a time of day, whose seconds may have a fraction. -/
def time? (s : List Char) : Option (List Char) := do
  let (_, s) ← twoDigits? 0 23 s
  let s ← skip? ':' s
  let (_, s) ← twoDigits? 0 59 s
  let s ← skip? ':' s
  let (_, s) ← twoDigits? 0 60 s
  match s with
  | '.' :: c :: rest => if isDigit c then some (rest.dropWhile isDigit) else none
  | '.' :: [] => none
  | s => some s

/-- What is left after the distance from universal time, if one is written. -/
def offset? : List Char → Option (List Char)
  | c :: rest =>
      if c = 'Z' || c = 'z' then some rest
      else if c = '+' || c = '-' then do
        let (_, s) ← twoDigits? 0 23 rest
        let s ← skip? ':' s
        let (_, s) ← twoDigits? 0 59 s
        return s
      else some (c :: rest)
  | [] => some []

/-- A date with a time behind it if one follows, or a time alone. -/
def moment? (s : List Char) : Option (Value × List Char) :=
  match date? s with
  | some rest =>
      let timed :=
        match rest with
        | c :: after => if c = 'T' || c = 't' || c = ' ' then time? after >>= offset? else none
        | [] => none
      some (.moment, timed.getD rest)
  | none => (time? s).map fun rest => (.moment, rest)

/-- A value that begins with a sign or a digit. -/
def read (s : List Char) : Option (Value × List Char) :=
  moment? s <|> float? s <|> specialFloat? s <|> integer? s

end Number
end Toml
end Courier
