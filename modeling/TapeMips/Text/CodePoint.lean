/-!
# Code points

Characters are the code points that a text in any encoding can hold. The others
are the surrogates, halves of pairs that only mean something together. A text
that comes from escapes or from a loose decoder may hold a half on its own, so
such texts are sequences of code points and not strings.

A property of characters is given as a table of closed ranges of code points.
Tables are kept in pieces, one list of ranges each, so that a piece stays short
enough to read.
-/

namespace TapeMips.Text

/-- A character, or half of a surrogate pair on its own. -/
inductive CodePoint where
  | char (c : Char)
  | surrogate (number : Nat)
  deriving DecidableEq, Repr

namespace CodePoint

/-- The number belongs to a surrogate. -/
def isSurrogateNumber (n : Nat) : Bool := 0xD800 ≤ n && n ≤ 0xDFFF

def ofNat (n : Nat) : CodePoint :=
  if isSurrogateNumber n then .surrogate n else .char (Char.ofNat n)

def isSurrogate : CodePoint → Bool
  | .char _ => false
  | .surrogate _ => true

/-- The character that two halves stand for together. -/
def ofPair (high low : Nat) : CodePoint :=
  .char (Char.ofNat (0x10000 + (high - 0xD800) * 0x400 + (low - 0xDC00)))

/-- What is shown in place of a half that has no partner. -/
def replacement : Char := Char.ofNat 0xFFFD

/-- The code point as a character. -/
def toChar : CodePoint → Char
  | .char c => c
  | .surrogate _ => replacement

end CodePoint

/-- A text that may hold surrogates. -/
abbrev CodePoints := List CodePoint

namespace CodePoints

def ofText (text : String) : CodePoints := text.toList.map .char

/-- The text with every surrogate replaced. It has as many characters as there are
code points. -/
def text (points : CodePoints) : String := String.ofList (points.map (·.toChar))

theorem ofText_append (a b : String) : ofText (a ++ b) = ofText a ++ ofText b := by
  simp [ofText]

theorem text_ofText (content : String) : text (ofText content) = content := by
  simp [text, ofText, Function.comp_def, CodePoint.toChar]

end CodePoints

/-- The character lies in one of the ranges. -/
def inRanges (c : Char) (ranges : List (Nat × Nat)) : Bool :=
  ranges.any fun r => r.1 ≤ c.toNat && c.toNat ≤ r.2

/-- The character lies in one of the ranges of one of the pieces. -/
def inTable (c : Char) (pieces : List (List (Nat × Nat))) : Bool :=
  pieces.any (inRanges c)

end TapeMips.Text
