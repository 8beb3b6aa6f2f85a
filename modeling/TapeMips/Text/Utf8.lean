import TapeMips.Text.CodePoint

/-!
# Reading UTF-8

The decoder accepts exactly the well-formed sequences: shortest forms only, no
surrogates, nothing above U+10FFFF. Where a text is not well formed the error
says which bytes are to blame: the bytes of the broken sequence that were still
possible, up to but not including the byte that broke it.

A caller may ask for surrogates to be let through; the result is then a text of
code points. The other way round such a text can only be written in UTF-8 if it
holds no surrogate.
-/

namespace TapeMips.Text.Utf8

/-- What is wrong with a sequence of bytes. -/
inductive Reason where
  /-- No character begins with this byte. -/
  | invalidStart
  /-- The next byte cannot continue the character. -/
  | invalidContinuation
  /-- The text ends inside a character. -/
  | unexpectedEnd
  deriving DecidableEq, Repr

def Reason.message : Reason → String
  | .invalidStart => "invalid start byte"
  | .invalidContinuation => "invalid continuation byte"
  | .unexpectedEnd => "unexpected end of data"

/-- Where and why a text is not UTF-8. -/
structure DecodeError where
  /-- The offset of the first bad byte. -/
  position : Nat
  /-- How many bytes are bad. -/
  count : Nat
  /-- The first bad byte. -/
  byte : UInt8
  reason : Reason
  deriving DecidableEq, Repr

/-- A byte as two hexadecimal digits. -/
def hexByte (b : UInt8) : String :=
  String.ofList [Nat.digitChar (b.toNat / 16), Nat.digitChar (b.toNat % 16)]

def DecodeError.message (e : DecodeError) : String :=
  let place :=
    if e.count = 1 then "byte 0x" ++ hexByte e.byte ++ s!" in position {e.position}"
    else s!"bytes in position {e.position}-{e.position + e.count - 1}"
  "'utf-8' codec can't decode " ++ place ++ ": " ++ e.reason.message

/-- How a sequence goes on after its first byte. -/
inductive Lead where
  /-- The byte is a character by itself. -/
  | one
  /-- One more byte follows. -/
  | two
  /-- Two more follow, the first of them between these bounds. -/
  | three (low high : UInt8)
  /-- Three more follow, the first of them between these bounds. -/
  | four (low high : UInt8)
  | invalid
  deriving DecidableEq, Repr

/-- What the first byte promises. The bounds rule out longer forms than needed,
surrogates (unless they are let through) and numbers above the last code point. -/
def leadOf (surrogates : Bool) (b : UInt8) : Lead :=
  if b < 0x80 then .one
  else if b < 0xC2 then .invalid
  else if b < 0xE0 then .two
  else if b = 0xE0 then .three 0xA0 0xBF
  else if b = 0xED && !surrogates then .three 0x80 0x9F
  else if b < 0xF0 then .three 0x80 0xBF
  else if b = 0xF0 then .four 0x90 0xBF
  else if b < 0xF4 then .four 0x80 0xBF
  else if b = 0xF4 then .four 0x80 0x8F
  else .invalid

/-- A byte that continues a character. -/
def isTail (b : UInt8) : Bool := 0x80 ≤ b && b ≤ 0xBF

/-- The six bits that a continuing byte carries. -/
def tailBits (b : UInt8) : Nat := b.toNat % 64

/-- Decodes the bytes from `position` on to the numbers of their code points;
`read` holds the numbers before them, last first. -/
def decodeFrom (surrogates : Bool) (position : Nat) (read : List Nat) :
    List UInt8 → Except DecodeError (List Nat)
  | [] => .ok read.reverse
  | b :: rest =>
    let fail (count : Nat) (reason : Reason) : Except DecodeError (List Nat) :=
      .error ⟨position, count, b, reason⟩
    match leadOf surrogates b with
    | .one => decodeFrom surrogates (position + 1) (b.toNat :: read) rest
    | .invalid => fail 1 .invalidStart
    | .two =>
      match rest with
      | [] => fail 1 .unexpectedEnd
      | c :: rest =>
        if !isTail c then fail 1 .invalidContinuation
        else decodeFrom surrogates (position + 2)
          ((b.toNat % 32 * 64 + tailBits c) :: read) rest
    | .three low high =>
      match rest with
      | [] => fail 1 .unexpectedEnd
      | [c] =>
        if low ≤ c && c ≤ high then fail 2 .unexpectedEnd
        else fail 1 .invalidContinuation
      | c :: d :: rest =>
        if !(low ≤ c && c ≤ high) then fail 1 .invalidContinuation
        else if !isTail d then fail 2 .invalidContinuation
        else
          decodeFrom surrogates (position + 3)
            (((b.toNat % 16 * 64 + tailBits c) * 64 + tailBits d) :: read) rest
    | .four low high =>
      match rest with
      | [] => fail 1 .unexpectedEnd
      | [c] =>
        if low ≤ c && c ≤ high then fail 2 .unexpectedEnd
        else fail 1 .invalidContinuation
      | [c, d] =>
        if !(low ≤ c && c ≤ high) then fail 1 .invalidContinuation
        else if !isTail d then fail 2 .invalidContinuation
        else fail 3 .unexpectedEnd
      | c :: d :: e :: rest =>
        if !(low ≤ c && c ≤ high) then fail 1 .invalidContinuation
        else if !isTail d then fail 2 .invalidContinuation
        else if !isTail e then fail 3 .invalidContinuation
        else
          decodeFrom surrogates (position + 4)
            ((((b.toNat % 8 * 64 + tailBits c) * 64 + tailBits d) * 64 +
              tailBits e) :: read) rest

/-- The characters of a UTF-8 text. No surrogate gets through, so every number is
a character's. -/
def decode (bytes : List UInt8) : Except DecodeError (List Char) :=
  (decodeFrom false 0 [] bytes).map (·.map Char.ofNat)

/-- The code points of a text that may hold surrogates. -/
def decodeLoosely (bytes : List UInt8) : Except DecodeError CodePoints :=
  (decodeFrom true 0 [] bytes).map (·.map CodePoint.ofNat)

/-- The bytes are the first two of a surrogate. -/
def isHalfSurrogate : List UInt8 → Bool
  | [b, c] => b = 0xED && 0xA0 ≤ c && c ≤ 0xBF
  | _ => false

/-- Decodes the beginning of a text: the characters that are complete, and the
bytes of a last one that is not. Two bytes of a surrogate are left for the rest of
the text to complain of. -/
def decodeBeginning (bytes : List UInt8) :
    Except DecodeError (List Char × List UInt8) :=
  match decode bytes with
  | .ok cs => .ok (cs, [])
  | .error e =>
    if e.reason = .unexpectedEnd || isHalfSurrogate (bytes.drop e.position) then
      (decode (bytes.take e.position)).map fun cs => (cs, bytes.drop e.position)
    else .error e

/-- The UTF-8 bytes of a text. -/
def encode (text : String) : List UInt8 := text.toUTF8.data.toList

/-- Surrogates that stand in a text next to each other. They have no encoding. -/
structure EncodeError where
  /-- Where the first of them stands. -/
  position : Nat
  first : Nat
  /-- How many there are. -/
  count : Nat
  deriving DecidableEq, Repr

def EncodeError.message (e : EncodeError) : String :=
  let place :=
    if e.count = 1 then
      "character '\\u" ++ String.ofList (Nat.toDigits 16 e.first) ++
        s!"' in position {e.position}"
    else s!"characters in position {e.position}-{e.position + e.count - 1}"
  "'utf-8' codec can't encode " ++ place ++ ": surrogates not allowed"

/-- Why a text of code points cannot be written, if it cannot. -/
def encodeError? (points : CodePoints) : Option EncodeError :=
  let position := points.takeWhile (!·.isSurrogate) |>.length
  match points.drop position with
  | .surrogate first :: rest =>
    some ⟨position, first, 1 + (rest.takeWhile (·.isSurrogate)).length⟩
  | _ => none

end TapeMips.Text.Utf8
