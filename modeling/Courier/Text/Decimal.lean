/-!
Decimal texts of binary64 numbers with a fixed number of places. A finite number is read as
`±mantissa · 2 ^ exponent` and rounded once, half to even, so the text is that of the exact value.
-/

namespace Courier
namespace Text

/-- The quotient rounded to the nearest integer, a half going to the even neighbour. -/
def roundDiv (num den : Nat) : Nat :=
  let q := num / den
  let twice := 2 * (num % den)
  if twice < den then q
  else if den < twice then q + 1
  else if q % 2 = 0 then q else q + 1

/-- A binary64 number taken apart. -/
inductive Binary
  | nan
  | infinite (negative : Bool)
  | finite (negative : Bool) (mantissa : Nat) (exponent : Int)

def Binary.ofBits (bits : Nat) : Binary :=
  let negative : Bool := bits / Nat.pow 2 63 == 1
  let field : Nat := bits / Nat.pow 2 52 % Nat.pow 2 11
  let fraction : Nat := bits % Nat.pow 2 52
  if field = 2047 then
    if fraction = 0 then .infinite negative else .nan
  else if field = 0 then .finite negative fraction (-1074)
  else .finite negative (Nat.pow 2 52 + fraction) ((field : Int) - 1075)

/-- The number times `10 ^ places`, rounded. -/
def scaled (places mantissa : Nat) (exponent : Int) : Nat :=
  if 0 ≤ exponent then mantissa * Nat.pow 10 places * Nat.pow 2 exponent.toNat
  else roundDiv (mantissa * Nat.pow 10 places) (Nat.pow 2 (-exponent).toNat)

/-- Digits of `n`, at least `width` of them. -/
def padded (width n : Nat) : String :=
  let digits := toString n
  String.ofList (List.replicate (width - digits.length) '0') ++ digits

/-- A sign is written for negative zero too. -/
def Binary.fixed (places : Nat) : Binary → String
  | .nan => "NaN"
  | .infinite negative => if negative then "-inf" else "inf"
  | .finite negative mantissa exponent =>
      let n := scaled places mantissa exponent
      let sign := if negative then "-" else ""
      if places = 0 then sign ++ toString n
      else
        let unit := Nat.pow 10 places
        sign ++ toString (n / unit) ++ "." ++ padded places (n % unit)

def fixed (places : Nat) (x : Float) : String :=
  (Binary.ofBits x.toBits.toNat).fixed places

end Text
end Courier
