/-!
# Double precision

The values of the 64-bit binary format, without their encoding: a finite value
is an integer below 2^53 times a power of two. They are compared exactly, as
the numbers they are; a value that is not a number compares as false with
everything, itself included.

A decimal is rounded to the nearest value, and to the one with the even integer
where two are equally near. What is at least half a step above the largest
finite value becomes infinite.
-/

namespace TapeMips.Numeral

/-- A value of the 64-bit binary format. -/
inductive Binary64 where
  | nan
  | infinite (negative : Bool)
  /-- The number `mantissa * 2 ^ exponent`, or its negative. -/
  | finite (negative : Bool) (mantissa : Nat) (exponent : Int)
  deriving DecidableEq, Repr

namespace Binary64

/-- The exponent of the smallest step. -/
def minExponent : Int := -1074

/-- The exponent of the largest step. -/
def maxExponent : Int := 971

def zero : Binary64 := .finite false 0 minExponent

def one : Binary64 := .finite false (Nat.pow 2 52) (-52)

/-- A finite value in units of the smallest step, with its sign. -/
def scaled (negative : Bool) (mantissa : Nat) (exponent : Int) : Int :=
  let n : Int := (mantissa * Nat.pow 2 (exponent - minExponent).toNat : Nat)
  if negative then -n else n

/-- The first value is less than the second. -/
def lt : Binary64 → Binary64 → Bool
  | .nan, _ | _, .nan => false
  | .infinite a, .infinite b => a && !b
  | .infinite a, .finite .. => a
  | .finite .., .infinite b => !b
  | .finite a m e, .finite b n f => scaled a m e < scaled b n f

/-- The first value is less than the second, or equal to it. -/
def le : Binary64 → Binary64 → Bool
  | .nan, _ | _, .nan => false
  | .infinite a, .infinite b => a || !b
  | .infinite a, .finite .. => a
  | .finite .., .infinite b => !b
  | .finite a m e, .finite b n f => scaled a m e ≤ scaled b n f

/-- The quotient rounded to the nearest integer, a half to the even neighbour. -/
def roundDiv (numerator denominator : Nat) : Nat :=
  let q := numerator / denominator
  let r := numerator % denominator
  if 2 * r < denominator || (2 * r = denominator && q % 2 = 0) then q else q + 1

/-- The value nearest to a positive fraction. -/
def ofFraction (negative : Bool) (numerator denominator : Nat) : Binary64 :=
  -- The step that leaves 53 or 54 bits before rounding, or the smallest step.
  let estimate : Int := (numerator.log2 : Int) - denominator.log2 - 53
  let round (exponent : Int) : Nat :=
    roundDiv (numerator * Nat.pow 2 (-exponent).toNat)
      (denominator * Nat.pow 2 exponent.toNat)
  let fine := max estimate minExponent
  -- With 54 bits the next larger step is the right one.
  let exponent := if round fine < Nat.pow 2 53 then fine else fine + 1
  let mantissa := round exponent
  -- Rounding may carry into one more bit.
  let (mantissa, exponent) :=
    if mantissa = Nat.pow 2 53 then (Nat.pow 2 52, exponent + 1)
    else (mantissa, exponent)
  if maxExponent < exponent then .infinite negative
  else .finite negative mantissa exponent

/-- The value nearest to `digits * 10 ^ exponent`. Magnitudes far outside the
range are settled by the number of digits alone. -/
def ofDecimal (negative : Bool) (digits : Nat) (exponent : Int) : Binary64 :=
  let magnitude := exponent + (Nat.toDigits 10 digits).length
  if digits = 0 || magnitude < -400 then .finite negative 0 minExponent
  else if 400 < magnitude then .infinite negative
  else if 0 ≤ exponent then ofFraction negative (digits * Nat.pow 10 exponent.toNat) 1
  else ofFraction negative digits (Nat.pow 10 (-exponent).toNat)

def isFinite : Binary64 → Bool
  | .finite .. => true
  | _ => false

end Binary64

end TapeMips.Numeral
