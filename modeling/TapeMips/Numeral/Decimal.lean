import TapeMips.Numeral.Binary64
import TapeMips.Numeral.Integer

/-!
# Decimal numbers

A decimal number has a sign, digits with at most one point among them, and an
exponent; sign and exponent may be missing, and so may the digits on one side
of the point. Single underscores may stand between digits. The words for
infinity and for no number at all are read in any mixture of cases.

The text is read exactly and rounded once, however many digits it has.
-/

namespace TapeMips.Numeral

/-- An ASCII digit. -/
def isPlainDigit (c : Char) : Bool := '0' ≤ c && c ≤ '9'

/-- Drops underscores that stand between two digits; `none` if one stands
elsewhere. The last character before is `previous`. -/
def dropUnderscores? (previous : Char) : List Char → Option (List Char)
  | [] => some []
  | '_' :: next :: rest =>
    if isPlainDigit previous && isPlainDigit next then
      (dropUnderscores? next rest).map (next :: ·)
    else none
  | '_' :: [] => none
  | c :: rest => (dropUnderscores? c rest).map (c :: ·)

/-- The number that a run of ASCII digits stands for. -/
def ofPlainDigits (cs : List Char) : Nat :=
  ofDigits 10 (cs.map fun c => c.toNat - '0'.toNat)

/-- The exponent behind the digits: nothing, or a letter, an optional sign and
digits. -/
def exponent? : List Char → Option Int
  | [] => some 0
  | e :: rest =>
    if e = 'e' || e = 'E' then
      let (negative, digits) := match rest with
        | '-' :: digits => (true, digits)
        | '+' :: digits => (false, digits)
        | digits => (false, digits)
      if digits.isEmpty || !digits.all isPlainDigit then none
      else
        let n : Int := ofPlainDigits digits
        some (if negative then -n else n)
    else none

/-- A number without a sign. -/
def unsignedDecimal? (negative : Bool) (cs : List Char) : Option Binary64 := do
  let whole := cs.takeWhile isPlainDigit
  let rest := cs.dropWhile isPlainDigit
  let (places, rest) := match rest with
    | '.' :: rest => (rest.takeWhile isPlainDigit, rest.dropWhile isPlainDigit)
    | rest => ([], rest)
  guard (!(whole ++ places).isEmpty)
  let exponent ← exponent? rest
  return Binary64.ofDecimal negative (ofPlainDigits (whole ++ places))
    (exponent - places.length)

/-- A number without a sign, or one of the words that stand for no finite number. -/
def unsigned? (negative : Bool) (cs : List Char) : Option Binary64 :=
  let word := String.ofList (cs.map Char.toLower)
  if word = "inf" || word = "infinity" then some (.infinite negative)
  else if word = "nan" then some .nan
  else unsignedDecimal? negative cs

/-- Reads a decimal number and rounds it to double precision. -/
def decimalNumber? (text : String) : Option Binary64 := do
  let cs ← dropUnderscores? ' ' (plainNumeral text)
  match cs with
  | '-' :: rest => unsigned? true rest
  | '+' :: rest => unsigned? false rest
  | cs => unsigned? false cs

end TapeMips.Numeral
