import TapeMips.Text.Reader

/-!
# Source streams

A source may come from a stream of which a part has been read already. There are
streams over a text, which hand it out as it is, and streams over UTF-8 bytes,
which decode them and unify line ends. A stream may have been closed, or stand
on a device that fails whenever it is read.
-/

namespace TapeMips.Source

open Text

/-- A stream to read a source from. -/
inductive Stream where
  /-- What is left of a text. -/
  | text (content : List Char)
  | bytes (reader : Reader)
  /-- A stream that has been closed, over bytes or over a text. -/
  | closed (overBytes : Bool)
  /-- The device behind the stream fails. -/
  | failing
  deriving DecidableEq, Repr

/-- Why a stream could not be read. -/
inductive ReadFailure where
  | device
  /-- The bytes are not UTF-8. -/
  | undecodable (error : Utf8.DecodeError)
  | closed (overBytes : Bool)
  /-- The number of characters asked for is no index. -/
  | notIndex
  deriving DecidableEq, Repr

def ReadFailure.message : ReadFailure → String
  | .device => "Input/output error"
  | .undecodable e => e.message
  | .closed overBytes =>
    "I/O operation on closed file" ++ if overBytes then "." else ""
  | .notIndex => Numeral.notIndexMessage

namespace Stream

def ofText (text : String) : Stream := .text text.toList

def ofBytes (bytes : List UInt8) : Stream := .bytes { bytes }

/-- Reads all characters that are left. -/
def readAll : Stream → Except ReadFailure (List Char)
  | .text content => .ok content
  | .bytes reader => reader.readAll.mapError .undecodable
  | .closed overBytes => .error (.closed overBytes)
  | .failing => .error .device

/-- Reads `count` characters, or as many as there are, and throws them away. A
negative number stands for all of them, and whether it is a number of characters
at all is asked first. -/
def skip (s : Stream) (count : Int) : Except ReadFailure Stream :=
  if !Numeral.isIndex count then .error .notIndex
  else if count < 0 then s.readAll.map fun _ => .text []
  else
    match s with
    | .text content => .ok (.text (content.drop count.toNat))
    | .bytes reader =>
      ((reader.skip count.toNat).map Stream.bytes).mapError .undecodable
    | .closed overBytes => .error (.closed overBytes)
    | .failing => .error .device

end Stream

end TapeMips.Source
