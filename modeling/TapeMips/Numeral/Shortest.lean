import TapeMips.Numeral.Binary64

/-!
# Shortest decimals

A finite value of double precision is written with the fewest digits that read
back as the same value; of several such decimals the one nearest to the value is
taken. Numbers of common size are written with a point, all others with an
exponent.
-/

namespace TapeMips.Numeral

/-- The number `digits * 10 ^ exponent`. -/
structure Decimal where
  digits : Nat
  exponent : Int
  deriving DecidableEq, Repr

namespace Binary64

/-- A finite value as a fraction. -/
def fraction (mantissa : Nat) (exponent : Int) : Nat × Nat :=
  (mantissa * Nat.pow 2 exponent.toNat, Nat.pow 2 (-exponent).toNat)

/-- The number of digits before the point of a positive fraction; negative where
zeros follow the point. -/
def magnitude (numerator denominator : Nat) : Int :=
  if denominator ≤ numerator then (Nat.toDigits 10 (numerator / denominator)).length
  else
    -- The number of zeros behind the point is one less than the power of ten that
    -- lifts the fraction to one.
    let lifts (n : Nat) : Bool := denominator ≤ numerator * Nat.pow 10 n
    1 - (((List.range 330).find? lifts).getD 330 : Nat)

/-- The decimal with at most `count` digits that reads back as `mantissa * 2 ^
exponent` and is nearest to it, if there is one. -/
def decimalOf? (mantissa : Nat) (exponent : Int) (count : Nat) : Option Decimal :=
  let (numerator, denominator) := fraction mantissa exponent
  let power := magnitude numerator denominator - count
  let numerator := numerator * Nat.pow 10 (-power).toNat
  let denominator := denominator * Nat.pow 10 power.toNat
  let below := numerator / denominator
  let nearest := roundDiv numerator denominator
  let other := if nearest = below then below + 1 else below
  let readsBack (digits : Nat) : Bool :=
    ofDecimal false digits power == .finite false mantissa exponent
  ([nearest, other].find? readsBack).map fun digits => ⟨digits, power⟩

/-- The decimal with the fewest digits that reads back; seventeen digits are
always enough. -/
def shortest (mantissa : Nat) (exponent : Int) : Decimal :=
  ((List.range 17).findSome? fun n => decimalOf? mantissa exponent (n + 1)).getD ⟨0, 0⟩

end Binary64

/-- Drops the zeros at the end of the digits. -/
def dropTrailingZeros (digits : List Char) : List Char :=
  match (digits.reverse.dropWhile (· = '0')).reverse with
  | [] => ['0']
  | kept => kept

/-- The exponents of the first digit for which a number is written with a point
alone. -/
def isPositional (exponent : Int) : Bool := -4 ≤ exponent && exponent < 16

/-- A positive number with its point or exponent. A whole number keeps one zero
behind the point, and an exponent has a sign and at least two digits. -/
def Decimal.text (d : Decimal) : String :=
  let all := Nat.toDigits 10 d.digits
  let first : Int := d.exponent + all.length - 1
  let digits := dropTrailingZeros all
  if isPositional first then
    if first < 0 then
      "0." ++ String.ofList (List.replicate (-first - 1).toNat '0' ++ digits)
    else
      let whole := first.toNat + 1
      let places := digits.drop whole
      String.ofList (digits.take whole ++
        List.replicate (whole - digits.length) '0') ++ "." ++
        (if places.isEmpty then "0" else String.ofList places)
  else
    let point :=
      if digits.length = 1 then digits else digits.take 1 ++ '.' :: digits.drop 1
    let power := Nat.toDigits 10 first.natAbs
    String.ofList (point ++ ['e', if first < 0 then '-' else '+'] ++
      List.replicate (2 - power.length) '0' ++ power)

/-- A finite value as text. -/
def Binary64.text : Binary64 → String
  | .nan => "nan"
  | .infinite negative => if negative then "-inf" else "inf"
  | .finite negative mantissa exponent =>
    let magnitude :=
      if mantissa = 0 then "0.0" else (Binary64.shortest mantissa exponent).text
    if negative then "-" ++ magnitude else magnitude

end TapeMips.Numeral
