import TapeMips.Text.Layout

/-!
# Integers

Integers are read from text in two ways: as plain decimal numerals, where
leading zeros are welcome, and as literals, whose base shows in their first
characters. Both take the decimal digits of any script, an optional sign, and
single underscores between digits.

A decimal numeral may have no more than 4300 digits. The cap is counted in
digits, so leading zeros count and underscores do not; the other bases have
none, because reading them takes linear time.

Integers themselves are not limited, but places in a memory or in a text are
counted by numbers of limited size. So one may be asked for as a count or a
place that is no index at all; that is a mistake of its own, apart from an index
that merely lies outside what is there.
-/

namespace TapeMips.Numeral

open Text

/-- The first number that is too large to be an index. -/
def indexBound : Nat := Nat.pow 2 63

/-- The integer can be used as an index, counted from either end. -/
def isIndex (n : Int) : Bool := -indexBound ≤ n && n < indexBound

/-- What is said of an integer that is no index. -/
def notIndexMessage : String := "cannot fit 'int' into an index-sized integer"

/-- The largest number of decimal digits that is read or written. -/
def maxDigits : Nat := 4300

/-- An integer that cannot be written down, because it has too many decimal digits. -/
def isTooLong (n : Int) : Bool := Nat.pow 10 maxDigits ≤ n.natAbs

/-- A decimal numeral goes beyond the largest number of digits. -/
inductive DigitLimit where
  /-- It was to be written. -/
  | writing
  /-- It was to be read, and has this many digits. -/
  | reading (digits : Nat)
  deriving DecidableEq, Repr

def DigitLimit.message (e : DigitLimit) : String :=
  let found := match e with
    | .writing => ""
    | .reading digits => s!": value has {digits} digits"
  s!"Exceeds the limit ({maxDigits} digits) for integer string conversion" ++ found ++
    "; use sys.set_int_max_str_digits() to increase the limit"

/-- The decimal numeral of an integer. -/
def written (n : Int) : Except DigitLimit String :=
  if isTooLong n then .error .writing else .ok (toString n)

/-- The digit zero of each script. Every script with decimal digits has ten of
them in a row, zero first, so the zeros alone tell which characters are digits and
what they are worth (Unicode 14.0, general category Nd). -/
def digitZeros : List Nat :=
  [0x30, 0x660, 0x6F0, 0x7C0, 0x966, 0x9E6, 0xA66, 0xAE6, 0xB66, 0xBE6, 0xC66, 0xCE6,
    0xD66, 0xDE6, 0xE50, 0xED0, 0xF20, 0x1040, 0x1090, 0x17E0, 0x1810, 0x1946, 0x19D0,
    0x1A80, 0x1A90, 0x1B50, 0x1BB0, 0x1C40, 0x1C50, 0xA620, 0xA8D0, 0xA900, 0xA9D0,
    0xA9F0, 0xAA50, 0xABF0, 0xFF10, 0x104A0, 0x10D30, 0x11066, 0x110F0, 0x11136,
    0x111D0, 0x112F0, 0x11450, 0x114D0, 0x11650, 0x116C0, 0x11730, 0x118E0, 0x11950,
    0x11C50, 0x11D50, 0x11DA0, 0x16A60, 0x16AC0, 0x16B50, 0x1D7CE, 0x1D7D8, 0x1D7E2,
    0x1D7EC, 0x1D7F6, 0x1E140, 0x1E2F0, 0x1E950, 0x1FBF0]

/-- What a decimal digit of any script is worth. -/
def digitValue? (c : Char) : Option Nat :=
  (digitZeros.find? fun z => z ≤ c.toNat && c.toNat < z + 10).map (c.toNat - ·)

/-- A decimal digit of any script. -/
def isDigit (c : Char) : Bool := (digitValue? c).isSome

/-- The character as an ASCII digit, if it is a decimal digit of any script. -/
def plainDigit (c : Char) : Char :=
  match digitValue? c with
  | some v => Nat.digitChar v
  | none => c

/-- The value of an ASCII digit or letter in bases up to sixteen. -/
def digitOf? (base : Nat) (c : Char) : Option Nat :=
  let value? :=
    if '0' ≤ c && c ≤ '9' then some (c.toNat - '0'.toNat)
    else if 'a' ≤ c && c ≤ 'f' then some (c.toNat - 'a'.toNat + 10)
    else if 'A' ≤ c && c ≤ 'F' then some (c.toNat - 'A'.toNat + 10)
    else none
  value?.filter (· < base)

/-- The digits of a numeral: at least one, with single underscores only between
two digits. -/
def digits? (base : Nat) : List Char → Option (List Nat)
  | [] => none
  | [c] => (digitOf? base c).map ([·])
  | c :: '_' :: rest => do
    let d ← digitOf? base c
    return d :: (← digits? base rest)
  | c :: rest => do
    let d ← digitOf? base c
    return d :: (← digits? base rest)

/-- The number that digits stand for, most significant first. -/
def ofDigits (base : Nat) (digits : List Nat) : Nat :=
  digits.foldl (fun n d => n * base + d) 0

/-- The number of a decimal numeral within the cap on digits. -/
def decimal? (cs : List Char) : Option Nat := do
  let ds ← digits? 10 cs
  guard (ds.length ≤ maxDigits)
  return ofDigits 10 ds

/-- A number without a sign whose first characters tell its base. A decimal one
begins with a zero only if it is zero. -/
def magnitude? (cs : List Char) : Option Nat :=
  let based (base : Nat) (rest : List Char) : Option Nat :=
    (digits? base (if rest.head? = some '_' then rest.drop 1 else rest)).map
      (ofDigits base)
  match cs with
  | '0' :: 'x' :: rest | '0' :: 'X' :: rest => based 16 rest
  | '0' :: 'o' :: rest | '0' :: 'O' :: rest => based 8 rest
  | '0' :: 'b' :: rest | '0' :: 'B' :: rest => based 2 rest
  | '0' :: _ => (decimal? cs).filter (· = 0)
  | _ => decimal? cs

/-- Reads an optional sign and hands the rest on. -/
def signed? (magnitude : List Char → Option Nat) : List Char → Option Int
  | '-' :: rest => (magnitude rest).map fun n => -(n : Int)
  | '+' :: rest => (magnitude rest).map fun n => (n : Int)
  | cs => (magnitude cs).map fun n => (n : Int)

/-- The text without the blanks around it, its digits in ASCII. -/
def plainNumeral (text : String) : List Char :=
  (trimBy isNumeralBlank text.toList).map plainDigit

/-- Reads an integer literal such as `-12`, `0x1F` or `1_000`. -/
def literal? (text : String) : Option Int := signed? magnitude? (plainNumeral text)

/-- Reads a decimal integer such as `-12` or `007`. -/
def integer? (text : String) : Option Int := signed? decimal? (plainNumeral text)

end TapeMips.Numeral
