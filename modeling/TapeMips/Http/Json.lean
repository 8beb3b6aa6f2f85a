import TapeMips.Numeral.Decimal
import TapeMips.Numeral.Shortest
import TapeMips.Text.CodePoint

/-!
# JSON

A reader and a writer for JSON texts. The reader goes through the text once,
with the values it is inside of on an explicit stack. Besides the standard's
literals it knows three words for numbers that are not finite, and a number may
be too large to be finite. Strings may hold surrogates, which only escapes and
loose encodings can bring in. Where an object repeats a name, the last member
counts, at the place of the first.

A text can fail in two ways. It may be malformed; or it may be well formed so
far and ask for too much, a nesting that is too deep or an integer with too many
digits. Whichever comes first in the text decides. Some tokens and the account
of some faults take levels beyond the containers they stand in, so close to the
limit they ask for too much as well.

Writing is compact and leaves characters outside ASCII as they are. Numbers that
are not finite have no place in the standard, and writing has a limit of its own
on the nesting, so not every value can be written.
-/

namespace TapeMips.Http

open Text

inductive Json where
  | null
  | bool (value : Bool)
  | integer (value : Int)
  | real (value : Numeral.Binary64)
  | string (value : CodePoints)
  | array (items : List Json)
  | object (members : List (CodePoints × Json))

namespace Json

/-- A string without surrogates. -/
def ofText (text : String) : Json := .string (.ofText text)

/-- Why a text could not be read. -/
inductive ReadError where
  | malformed
  /-- The text asks for more than the reader can hold. -/
  | excessive
  deriving DecidableEq, Repr

/-! The limits on the nesting are not part of the format. The reader and the
writer of the service call themselves for every container, on a stack of a
thousand calls that they share with whatever has called them. So each limit is
what the calls around it leave of the thousand, and would be another one in
another environment. -/

/-- How deeply the values of a text may be nested: thirty calls are under way when
a body begins to be read. -/
def maxDepth : Nat := 970

/-- How many levels it takes to tell what is wrong with a string, a name or a
delimiter: the account of the fault is put together by calls on the same stack. -/
def faultDepth : Nat := 3

/-- The error for a string, a name or a delimiter that is wrong inside `depth`
containers. Where there is no room to tell what is wrong, the text asks for too
much. -/
def faultAt (depth : Nat) : ReadError :=
  if depth + faultDepth ≤ maxDepth then .malformed else .excessive

/-- A blank between tokens. -/
def isSpace (p : CodePoint) : Bool :=
  p = .char ' ' || p = .char '\t' || p = .char '\n' || p = .char '\r'

/-- Where the reader stands inside a string. -/
inductive StringPlace where
  | plain
  /-- Behind a backslash. -/
  | escape
  /-- Inside a numeric escape: the digits to come, and the number so far. -/
  | numeric (left value : Nat)

/-- The code points of a string so far, last first, and the first half of a
surrogate pair that waits for the second. -/
structure StringText where
  read : CodePoints := []
  high : Option Nat := none

namespace StringText

/-- A half that waits for its partner in vain stays alone. -/
def settle (t : StringText) : CodePoints :=
  match t.high with
  | some h => .surrogate h :: t.read
  | none => t.read

def push (t : StringText) (p : CodePoint) : StringText := { read := p :: t.settle }

/-- Adds the code unit of a numeric escape. -/
def pushUnit (t : StringText) (n : Nat) : StringText :=
  if 0xD800 ≤ n && n ≤ 0xDBFF then { read := t.settle, high := some n }
  else
    match t.high with
    | some h =>
      if 0xDC00 ≤ n && n ≤ 0xDFFF then { read := .ofPair h n :: t.read }
      else t.push (.ofNat n)
    | none => t.push (.ofNat n)

end StringText

/-- The character that a letter behind a backslash stands for. -/
def escapeOf? : Char → Option Char
  | '"' => some '"'
  | '\\' => some '\\'
  | '/' => some '/'
  | 'b' => some '\x08'
  | 'f' => some '\x0c'
  | 'n' => some '\n'
  | 'r' => some '\r'
  | 't' => some '\t'
  | _ => none

/-- Reads a string behind its opening quote; gives the string and what follows it.
Control characters have to be escaped. -/
def readString (place : StringPlace) (t : StringText) :
    CodePoints → Option (CodePoints × CodePoints)
  | [] => none
  | p :: rest =>
    match place, p with
    | .plain, .surrogate _ => readString .plain (t.push p) rest
    | .plain, .char c =>
      if c = '"' then some (t.settle.reverse, rest)
      else if c = '\\' then readString .escape t rest
      else if c.toNat < 0x20 then none
      else readString .plain (t.push p) rest
    | .escape, .char c =>
      if c = 'u' then readString (.numeric 4 0) t rest
      else
        match escapeOf? c with
        | some e => readString .plain (t.push (.char e)) rest
        | none => none
    | .numeric left value, .char c =>
      match Numeral.digitOf? 16 c with
      | none => none
      | some d =>
        if left ≤ 1 then readString .plain (t.pushUnit (value * 16 + d)) rest
        else readString (.numeric (left - 1) (value * 16 + d)) t rest
    | _, .surrogate _ => none

/-- A character that can occur in a number. -/
def isNumberChar (c : Char) : Bool :=
  Numeral.isPlainDigit c || c = '-' || c = '+' || c = '.' || c = 'e' || c = 'E'

/-- The parts of a number as they are written. -/
structure NumberText where
  negative : Bool
  whole : List Char
  /-- The digits behind the point with the point itself, if there are any. -/
  places : List Char
  /-- The exponent with its letter, if there is one. -/
  exponent : List Char

namespace NumberText

/-- Cuts a number off the start of a text. A point or an exponent without digits
does not belong to it. -/
def cut? (cs : List Char) : Option NumberText :=
  let negative := cs.head? = some '-'
  let unsigned := if negative then cs.drop 1 else cs
  let whole := match unsigned with
    | '0' :: _ => ['0']
    | _ => unsigned.takeWhile Numeral.isPlainDigit
  if whole.isEmpty then none
  else
    let rest := unsigned.drop whole.length
    let places := match rest with
      | '.' :: digits => pointed (digits.takeWhile Numeral.isPlainDigit)
      | _ => []
    let exponent := match rest.drop places.length with
      | e :: tail =>
        if e = 'e' || e = 'E' then
          let sign := tail.take 1 |>.filter fun c => c = '-' || c = '+'
          let digits := (tail.drop sign.length).takeWhile Numeral.isPlainDigit
          if digits.isEmpty then [] else e :: sign ++ digits
        else []
      | [] => []
    some { negative, whole, places, exponent }
where
  pointed (digits : List Char) : List Char :=
    if digits.isEmpty then [] else '.' :: digits

/-- The number of characters. -/
def length (n : NumberText) : Nat :=
  (if n.negative then 1 else 0) + n.whole.length + n.places.length + n.exponent.length

/-- The value: an integer, unless there is a point or an exponent. Only the digits
of integers are limited. -/
def value (n : NumberText) : Except ReadError Json :=
  if n.places.isEmpty && n.exponent.isEmpty then
    if n.whole.length ≤ Numeral.maxDigits then
      let magnitude : Int := Numeral.ofPlainDigits n.whole
      .ok (.integer (if n.negative then -magnitude else magnitude))
    else .error .excessive
  else
    match Numeral.unsignedDecimal? n.negative (n.whole ++ n.places ++ n.exponent) with
    | some x => .ok (.real x)
    | none => .error .malformed

end NumberText

/-- The literals of the standard. -/
def literals : List (String × Json) :=
  [("null", .null), ("true", .bool true), ("false", .bool false)]

/-- The words for numbers that are not finite. -/
def numberWords : List (String × Json) :=
  [("NaN", .real .nan), ("Infinity", .real (.infinite false)),
    ("-Infinity", .real (.infinite true))]

/-- One of the words at the start of a text, and what follows. -/
def readWord? (words : List (String × Json)) (points : CodePoints) :
    Option (Json × CodePoints) :=
  (words.find? fun w => (CodePoints.ofText w.1).isPrefixOf points).map fun w =>
    (w.2, points.drop w.1.length)

/-- A number at the start of a text, and what follows. -/
def readNumber (points : CodePoints) : Except ReadError (Json × CodePoints) :=
  let cs := (points.takeWhile fun p => isNumberChar p.toChar).map (·.toChar)
  match NumberText.cut? cs with
  | none => .error .malformed
  | some n => n.value.map fun v => (v, points.drop n.length)

/-- A value that is not a container, inside `depth` containers. A word for a
number that is not finite takes a level of its own. -/
def readScalar (depth : Nat) (points : CodePoints) :
    Except ReadError (Json × CodePoints) :=
  match points with
  | .char '"' :: rest =>
    match readString .plain {} rest with
    | some (s, rest) => .ok (.string s, rest)
    | none => .error (faultAt depth)
  | _ =>
    match readWord? literals points, readWord? numberWords points with
    | some r, _ => .ok r
    | none, some r => if depth < maxDepth then .ok r else .error .excessive
    | none, none => readNumber points

/-- Adds a member. One of the same name is replaced where it stands. -/
def insertMember (name : CodePoints) (value : Json) :
    List (CodePoints × Json) → List (CodePoints × Json)
  | [] => [(name, value)]
  | m :: rest =>
    if m.1 = name then (name, value) :: rest else m :: insertMember name value rest

/-- A container that is being read, with what it holds so far; items last first. -/
inductive Frame where
  | array (items : List Json)
  | object (members : List (CodePoints × Json)) (name : CodePoints)

/-- What may come next. -/
inductive Expectation where
  | value
  /-- The first item of an array, or its end. -/
  | firstItem
  /-- The first name of an object, or its end. -/
  | firstName
  | name (members : List (CodePoints × Json))
  | colon (members : List (CodePoints × Json)) (name : CodePoints)
  /-- A comma, or the end of the innermost container. -/
  | separator
  /-- Nothing but blanks, behind the whole value. -/
  | nothing (value : Json)

/-- Where the reader stands. -/
structure Place where
  stack : List Frame := []
  next : Expectation := .value

/-- The number of containers around the reader. The object that a name belongs to
is not on the stack while its value is still to come. -/
def Place.depth (place : Place) : Nat :=
  match place.next with
  | .name _ | .colon _ _ => place.stack.length + 1
  | _ => place.stack.length

/-- A value is complete. -/
def deliver (v : Json) : List Frame → Place
  | [] => { next := .nothing v }
  | .array items :: outer =>
    { stack := .array (v :: items) :: outer, next := .separator }
  | .object members name :: outer =>
    { stack := .object (insertMember name v members) name :: outer,
      next := .separator }

/-- Enters a container, unless it is nested too deeply. -/
def enter (stack : List Frame) (place : Place) (rest : CodePoints) :
    Except ReadError (Place × CodePoints) :=
  if maxDepth ≤ stack.length then .error .excessive else .ok (place, rest)

/-- Reads the beginning of a value. -/
def readValue (stack : List Frame) (points : CodePoints) :
    Except ReadError (Place × CodePoints) :=
  match points with
  | .char '[' :: rest =>
    enter stack { stack := .array [] :: stack, next := .firstItem } rest
  | .char '\x7b' :: rest =>
    enter stack { stack := .object [] [] :: stack, next := .firstName } rest
  | _ => (readScalar stack.length points).map fun (v, rest) => (deliver v stack, rest)

/-- Reads the name of a member of an object inside the containers `outer`. -/
def readName (outer : List Frame) (members : List (CodePoints × Json))
    (points : CodePoints) : Except ReadError (Place × CodePoints) :=
  match points with
  | .char '"' :: rest =>
    match readString .plain {} rest with
    | some (name, rest) => .ok ({ stack := outer, next := .colon members name }, rest)
    | none => .error (faultAt (outer.length + 1))
  | _ => .error (faultAt (outer.length + 1))

/-- Reads one token of a text that does not begin with a blank. At the end of the
text that token is missing. -/
def readToken (place : Place) (points : CodePoints) :
    Except ReadError (Place × CodePoints) :=
  match place.next, place.stack, points with
  | .value, stack, _ => readValue stack points
  | .firstItem, .array _ :: outer, .char ']' :: rest =>
    .ok (deliver (.array []) outer, rest)
  | .firstItem, stack, _ => readValue stack points
  | .firstName, .object _ _ :: outer, .char '\x7d' :: rest =>
    .ok (deliver (.object []) outer, rest)
  | .firstName, .object _ _ :: outer, _ => readName outer [] points
  | .name members, outer, _ => readName outer members points
  | .colon members name, outer, .char ':' :: rest =>
    .ok ({ stack := .object members name :: outer, next := .value }, rest)
  | .separator, .array items :: outer, .char ']' :: rest =>
    .ok (deliver (.array items.reverse) outer, rest)
  | .separator, .array items :: outer, .char ',' :: rest =>
    .ok ({ stack := .array items :: outer, next := .value }, rest)
  | .separator, .object members _ :: outer, .char '\x7d' :: rest =>
    .ok (deliver (.object members) outer, rest)
  | .separator, .object members _ :: outer, .char ',' :: rest =>
    .ok ({ stack := outer, next := .name members }, rest)
  | _, _, _ => .error (faultAt place.depth)

/-- Reads tokens to the end of the text; no more than `tokens` are left. -/
def readFrom : (tokens : Nat) → Place → CodePoints → Except ReadError Json
  | 0, _, _ => .error .malformed
  | tokens + 1, place, points =>
    match place.next, points.dropWhile isSpace with
    | .nothing v, [] => .ok v
    | _, points =>
      match readToken place points with
      | .error e => .error e
      | .ok (place, rest) => readFrom tokens place rest

/-- Reads a JSON text. Every token has a character, so there are no more tokens
than that. -/
def read (points : CodePoints) : Except ReadError Json :=
  readFrom (points.length + 1) {} points

/-- The member of an object that goes by a name. -/
def member? (members : List (CodePoints × Json)) (name : String) : Option Json :=
  members.lookup (.ofText name)

/-- How a character is written inside a string. -/
def writtenChar (c : Char) : List Char :=
  match c with
  | '"' => ['\\', '"']
  | '\\' => ['\\', '\\']
  | '\n' => ['\\', 'n']
  | '\r' => ['\\', 'r']
  | '\t' => ['\\', 't']
  | '\x08' => ['\\', 'b']
  | '\x0c' => ['\\', 'f']
  | c =>
    if c.toNat < 0x20 then
      ['\\', 'u', '0', '0', Nat.digitChar (c.toNat / 16), Nat.digitChar (c.toNat % 16)]
    else [c]

/-- A string as JSON. -/
def writtenString (text : String) : String :=
  String.ofList ('"' :: text.toList.flatMap writtenChar ++ ['"'])

/-- An object as JSON, given its names and its values as JSON. -/
def writtenObject (members : List (String × String)) : String :=
  let written := members.map fun (name, value) => writtenString name ++ ":" ++ value
  "\x7b" ++ ",".intercalate written ++ "\x7d"

/-- A string that may hold surrogates as JSON. They are written as they are. -/
def writtenPoints (points : CodePoints) : CodePoints :=
  let inner := points.flatMap fun
    | .char c => (writtenChar c).map .char
    | .surrogate n => [.surrogate n]
  .char '"' :: inner ++ [.char '"']

/-- Puts a comma between texts. -/
def separated (texts : List CodePoints) : CodePoints :=
  (texts.intersperse [.char ',']).flatten

/-! A value is written without the members whose names a caller does not want to
show. -/

mutual

/-- A value as JSON, with the members whose names are `shown`. -/
def written (shown : CodePoints → Bool) : Json → CodePoints
  | .null => .ofText "null"
  | .bool value => .ofText (if value then "true" else "false")
  | .integer value => .ofText (toString value)
  | .real value => .ofText value.text
  | .string value => writtenPoints value
  | .array items => .char '[' :: separated (writtenItems shown items) ++ [.char ']']
  | .object members =>
    .char '\x7b' :: separated (writtenMembers shown members) ++ [.char '\x7d']

def writtenItems (shown : CodePoints → Bool) : List Json → List CodePoints
  | [] => []
  | v :: rest => written shown v :: writtenItems shown rest

def writtenMembers (shown : CodePoints → Bool) :
    List (CodePoints × Json) → List CodePoints
  | [] => []
  | (name, v) :: rest =>
    if shown name then
      (writtenPoints name ++ .char ':' :: written shown v) :: writtenMembers shown rest
    else writtenMembers shown rest

end

/-- How deeply a value may be nested to be written. Sending an answer takes two
calls more than receiving a body does before the first container is entered. -/
def maxWrittenDepth : Nat := 968

/-- Why a value cannot be written. -/
inductive WriteError where
  /-- It holds a number that is not finite. -/
  | notFinite
  /-- It holds such a number at the very limit of the nesting, with no level left
  to tell so. -/
  | notFiniteAtLimit
  /-- It is nested too deeply. -/
  | tooDeep
  deriving DecidableEq, Repr

mutual

/-- The first thing, in the order of writing, for which a value cannot be written
with `room` levels left. -/
def writeError? (shown : CodePoints → Bool) (room : Nat) : Json → Option WriteError
  | .real value =>
    if value.isFinite then none
    else if room = 0 then some .notFiniteAtLimit
    else some .notFinite
  | .array items =>
    if room = 0 then some .tooDeep else itemsError? shown (room - 1) items
  | .object members =>
    if room = 0 then some .tooDeep else membersError? shown (room - 1) members
  | _ => none

def itemsError? (shown : CodePoints → Bool) (room : Nat) :
    List Json → Option WriteError
  | [] => none
  | v :: rest =>
    match writeError? shown room v with
    | some e => some e
    | none => itemsError? shown room rest

def membersError? (shown : CodePoints → Bool) (room : Nat) :
    List (CodePoints × Json) → Option WriteError
  | [] => none
  | (name, v) :: rest =>
    match if shown name then writeError? shown room v else none with
    | some e => some e
    | none => membersError? shown room rest

end

mutual

/-- All strings that are written with the value are free of surrogates. -/
def isPlain (shown : CodePoints → Bool) : Json → Bool
  | .string value => !value.any (·.isSurrogate)
  | .array items => itemsPlain shown items
  | .object members => membersPlain shown members
  | _ => true

def itemsPlain (shown : CodePoints → Bool) : List Json → Bool
  | [] => true
  | v :: rest => isPlain shown v && itemsPlain shown rest

def membersPlain (shown : CodePoints → Bool) : List (CodePoints × Json) → Bool
  | [] => true
  | (name, v) :: rest =>
    (!shown name || (!name.any (·.isSurrogate) && isPlain shown v)) &&
      membersPlain shown rest

end

end Json

end TapeMips.Http
