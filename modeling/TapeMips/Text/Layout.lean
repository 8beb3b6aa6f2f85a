/-!
# Blanks, lines and cuts

Two notions of blank space occur. In running text a blank is any space, line
break or separator of any script. Around numerals the four information
separators of ASCII do not count as blanks.

A line ends at any of ten characters, among them the vertical tab, the page
break and the line and paragraph separators; a carriage return and the line
feed behind it are one end. The last line needs no end, and nothing behind the
last end is not a line. Reading a text file unifies only the three kinds of
line ends that text files come with: a carriage return, alone or with the line
feed behind it, counts as one line feed, and other separators are left alone.
-/

namespace TapeMips.Text

/-- White space of any script, the four ASCII information separators included. -/
def isBlank (c : Char) : Bool :=
  let n := c.toNat
  (0x09 ≤ n && n ≤ 0x0D) || (0x1C ≤ n && n ≤ 0x20) || n == 0x85 || n ==
    0xA0 || n == 0x1680
    || (0x2000 ≤ n && n ≤ 0x200A) || n == 0x2028 || n == 0x2029 || n ==
      0x202F || n == 0x205F
    || n == 0x3000

/-- What may stand around a numeral: any white space but the information separators. -/
def isNumeralBlank (c : Char) : Bool :=
  isBlank c && !(0x1C ≤ c.toNat && c.toNat ≤ 0x1F)

/-- Drops the characters of a class from both ends. -/
def trimBy (p : Char → Bool) (cs : List Char) : List Char :=
  ((cs.dropWhile p).reverse.dropWhile p).reverse

/-- The text without the blanks around it. -/
def trim (cs : List Char) : List Char := trimBy isBlank cs

theorem length_trimBy_le (p : Char → Bool) (cs : List Char) :
    (trimBy p cs).length ≤ cs.length := by
  have drop_le (xs : List Char) : (xs.dropWhile p).length ≤ xs.length :=
    (List.dropWhile_suffix p).length_le
  calc (trimBy p cs).length
      = ((cs.dropWhile p).reverse.dropWhile p).length := by simp [trimBy]
    _ ≤ (cs.dropWhile p).reverse.length := drop_le _
    _ = (cs.dropWhile p).length := by simp
    _ ≤ cs.length := drop_le cs

/-- A character that ends a line. -/
def isLineEnd (c : Char) : Bool :=
  let n := c.toNat
  (0x0A ≤ n && n ≤ 0x0D) || (0x1C ≤ n && n ≤ 0x1E) || n == 0x85 || n ==
    0x2028 || n == 0x2029

/-- The lines of a text whose first line began with `begun`, given last character
first. -/
def linesFrom (begun : List Char) : List Char → List (List Char)
  | [] => if begun.isEmpty then [] else [begun.reverse]
  | '\r' :: '\n' :: rest => begun.reverse :: linesFrom [] rest
  | c :: rest =>
    if isLineEnd c then begun.reverse :: linesFrom [] rest
    else linesFrom (c :: begun) rest

/-- The lines of a text, without their ends. -/
def lines (cs : List Char) : List (List Char) := linesFrom [] cs

/-- The text with every line end written as a line feed. -/
def unifyNewlines : List Char → List Char
  | [] => []
  | '\r' :: '\n' :: rest => '\n' :: unifyNewlines rest
  | c :: rest => (if c = '\r' then '\n' else c) :: unifyNewlines rest

/-- Splits at every character `separator`; there is always one piece more than
there are separators. -/
def splitAt (separator : Char) : List Char → List (List Char)
  | [] => [[]]
  | c :: rest =>
    if c = separator then [] :: splitAt separator rest
    else
      match splitAt separator rest with
      | [] => [[c]]
      | piece :: pieces => (c :: piece) :: pieces

/-- What stands before the first `separator`; everything, if there is none. -/
def before (separator : Char) (cs : List Char) : List Char :=
  cs.takeWhile (· ≠ separator)

/-- What stands behind the first `separator`; nothing, if there is none. -/
def after (separator : Char) (cs : List Char) : List Char :=
  (cs.dropWhile (· ≠ separator)).drop 1

end TapeMips.Text
