import TapeMips.Text.Utf8

/-!
# Texts in an encoding that is not named

A text that is known to begin with two ASCII characters shows its encoding in
its first bytes: by a byte order mark, or by where the zero bytes lie. Texts are
decoded loosely: a surrogate that has no partner is let through.
-/

namespace TapeMips.Text

/-- An encoding of Unicode, the order of its bytes, and the length of its mark. -/
inductive Encoding where
  | utf8
  | utf16 (bigEndian : Bool)
  | utf32 (bigEndian : Bool)
  deriving DecidableEq, Repr

namespace Encoding

/-- The encoding of a text and the text without its byte order mark. -/
def detect : List UInt8 → Encoding × List UInt8
  | 0x00 :: 0x00 :: 0xFE :: 0xFF :: rest => (.utf32 true, rest)
  | 0xFF :: 0xFE :: 0x00 :: 0x00 :: rest => (.utf32 false, rest)
  | 0xFE :: 0xFF :: rest => (.utf16 true, rest)
  | 0xFF :: 0xFE :: rest => (.utf16 false, rest)
  | 0xEF :: 0xBB :: 0xBF :: rest => (.utf8, rest)
  | bytes@(a :: b :: c :: d :: _) =>
    if a = 0 then (if b = 0 then .utf32 true else .utf16 true, bytes)
    else if b = 0 then (if c = 0 ∧ d = 0 then .utf32 false else .utf16 false, bytes)
    else (.utf8, bytes)
  | [a, b] =>
    (if a = 0 then .utf16 true else if b = 0 then .utf16 false else .utf8, [a, b])
  | bytes => (.utf8, bytes)

/-- The number that two bytes form. -/
def unit16 (bigEndian : Bool) (a b : UInt8) : Nat :=
  if bigEndian then a.toNat * 256 + b.toNat else b.toNat * 256 + a.toNat

/-- Decodes UTF-16; `read` holds the code points before, last first, and `high`
the first half of a pair that waits for the second. -/
def decode16 (bigEndian : Bool) (read : CodePoints) (high : Option Nat) :
    List UInt8 → Option CodePoints
  | [] => some (high.toList.map CodePoint.surrogate ++ read).reverse
  | [_] => none
  | a :: b :: rest =>
    let n := unit16 bigEndian a b
    let isHigh := 0xD800 ≤ n && n ≤ 0xDBFF
    let isLow := 0xDC00 ≤ n && n ≤ 0xDFFF
    match high with
    | some h =>
      if isLow then decode16 bigEndian (.ofPair h n :: read) none rest
      else if isHigh then decode16 bigEndian (.surrogate h :: read) (some n) rest
      else decode16 bigEndian (.ofNat n :: .surrogate h :: read) none rest
    | none =>
      if isHigh then decode16 bigEndian read (some n) rest
      else decode16 bigEndian (.ofNat n :: read) none rest

/-- Decodes UTF-32; `read` holds the code points before, last first. -/
def decode32 (bigEndian : Bool) (read : CodePoints) : List UInt8 → Option CodePoints
  | [] => some read.reverse
  | a :: b :: c :: d :: rest =>
    let n :=
      if bigEndian then unit16 true a b * 65536 + unit16 true c d
      else unit16 false c d * 65536 + unit16 false a b
    if n ≤ 0x10FFFF then decode32 bigEndian (.ofNat n :: read) rest else none
  | _ => none

end Encoding

/-- The code points of a text in the encoding that its first bytes show. -/
def decodeDetected? (bytes : List UInt8) : Option CodePoints :=
  match Encoding.detect bytes with
  | (.utf8, rest) => (Utf8.decodeLoosely rest).toOption
  | (.utf16 bigEndian, rest) => Encoding.decode16 bigEndian [] none rest
  | (.utf32 bigEndian, rest) => Encoding.decode32 bigEndian [] rest

end TapeMips.Text
