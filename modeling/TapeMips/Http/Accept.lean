import TapeMips.Numeral.Decimal
import TapeMips.Text.Layout
import TapeMips.Text.Lowercase

/-!
# Content negotiation

A client says in its Accept header which media types it likes and how much. The
header is a list of ranges, each with parameters; the last parameter named `q`
gives the quality, which is 1 if there is none and 0 if it is not a number.
Where a range is named twice, the last entry counts.

HTML is sent only to a client that accepts it and ranks it no lower than plain
text, which three ranges can stand for. Their best quality is found by keeping
the first one until a later one is greater, so that a quality that is not a
number stays if it comes first and never wins otherwise.
-/

namespace TapeMips.Http

open Text Numeral

/-- The media type that a header names, without its parameters. -/
def mediaType (header : String) : String :=
  lower (String.ofList (trim (before ';' header.toList)))

/-- The quality that a parameter gives, `none` if it is another parameter. -/
def qualityOf? (parameter : List Char) : Option Binary64 :=
  let name := lower (String.ofList (trim (before '=' parameter)))
  if name = "q" then
    some ((decimalNumber? (String.ofList (after '=' parameter))).getD Binary64.zero)
  else none

/-- A range of media types and how much it is liked. -/
structure Preference where
  range : String
  quality : Binary64
  deriving DecidableEq, Repr

/-- Reads one entry of an Accept header. -/
def Preference.ofEntry (entry : List Char) : Preference :=
  let parameters := (splitAt ';' entry).drop 1
  { range := mediaType (String.ofList entry)
    quality := ((parameters.filterMap qualityOf?).getLast?).getD Binary64.one }

/-- The entries of an Accept header; blank ones say nothing. -/
def preferences (accept : String) : List Preference :=
  ((splitAt ',' accept.toList).filter fun e => !(trim e).isEmpty).map
    Preference.ofEntry

/-- The quality of a range: the last entry that names it counts, and a range that
is not named is not accepted. -/
def qualityIn (ps : List Preference) (range : String) : Binary64 :=
  match ps.reverse.find? (·.range == range) with
  | some p => p.quality
  | none => Binary64.zero

/-- The larger of two qualities, the first unless the second is greater. -/
def better (a b : Binary64) : Binary64 := if Binary64.lt a b then b else a

/-- The best quality of the ranges that plain text falls into. -/
def plainQuality (ps : List Preference) : Binary64 :=
  better (better (qualityIn ps "text/plain") (qualityIn ps "text/*"))
    (qualityIn ps "*/*")

/-- A client with this Accept header is to be sent HTML. -/
def prefersHtml (accept : String) : Bool :=
  let ps := preferences accept
  let html := qualityIn ps "text/html"
  if Binary64.le html Binary64.zero then false
  else Binary64.le (plainQuality ps) html

end TapeMips.Http
