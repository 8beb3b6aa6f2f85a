import TapeMips.Numeral.Integer
import TapeMips.Text.Layout
import TapeMips.Text.Utf8

/-!
# Reading a text piece by piece

A reader turns UTF-8 bytes into characters as they are asked for. It fetches the
bytes in chunks, decodes each chunk as a whole, and keeps what was not asked for
yet. What cannot be decided within a chunk is held back until the next one: the
bytes of a character that is cut in two, and a carriage return, because a line
feed behind it would be part of the same line end.

So a broken text is noticed when the chunk that holds the broken bytes is
fetched, not when they are asked for, and a text that ends inside a character
only when more characters are asked for than there are. The position in the
error counts from the bytes that had been held back.
-/

namespace TapeMips.Text

/-- A text on its way from bytes to characters. -/
structure Reader where
  /-- Bytes that have not been fetched. -/
  bytes : List UInt8
  /-- The bytes of a character that is not complete yet. -/
  held : List UInt8 := []
  /-- The last character was a carriage return, whose line end may go on. -/
  heldReturn : Bool := false
  /-- Characters that can be handed out. -/
  ready : List Char := []
  /-- The bytes and the characters of the last chunk, from which the next one is
  estimated. -/
  lastChunk : Nat × Nat := (0, 0)
  deriving DecidableEq, Repr

namespace Reader

/-- The smallest number of bytes that is fetched at once. -/
def minChunk : Nat := 8192

/-- The number of bytes to fetch where `wanted` characters are missing: about as
many as they took in the last chunk, and never fewer than one each. An estimate
that is no index counts for nothing. -/
def chunkSize (r : Reader) (wanted : Nat) : Nat :=
  let (bytes, chars) := r.lastChunk
  let estimate := if chars < bytes && chars ≠ 0 then bytes * wanted / chars else wanted
  max minChunk (if estimate < Numeral.indexBound - 512 then estimate else 0)

theorem chunkSize_pos (r : Reader) (wanted : Nat) : 0 < r.chunkSize wanted :=
  Nat.lt_of_lt_of_le (by decide : 0 < minChunk) (Nat.le_max_left ..)

/-- Hands decoded characters over, with the carriage return that was held back
before them. If more may follow, one at the end is held back in turn. -/
def accept (r : Reader) (isLast : Bool) (cs : List Char) : Reader :=
  if cs.isEmpty && !isLast then { r with lastChunk := (r.lastChunk.1, 0) }
  else
    let cs := if r.heldReturn then '\r' :: cs else cs
    let holds := !isLast && cs.getLast? = some '\r'
    let unified := unifyNewlines (if holds then cs.dropLast else cs)
    { r with
      heldReturn := holds
      ready := r.ready ++ unified
      lastChunk := (r.lastChunk.1, unified.length) }

/-- Fetches and decodes one chunk. -/
def fetch (r : Reader) (wanted : Nat) : Except Utf8.DecodeError Reader := do
  let chunk := r.bytes.take (r.chunkSize wanted)
  let rest := r.bytes.drop (r.chunkSize wanted)
  let (cs, held) ← Utf8.decodeBeginning (r.held ++ chunk)
  return { r with bytes := rest, held, lastChunk := (chunk.length, 0) }.accept false cs

theorem bytes_accept (r : Reader) (isLast : Bool) (cs : List Char) :
    (r.accept isLast cs).bytes = r.bytes := by
  unfold accept
  split <;> rfl

theorem bytes_of_fetch {r s : Reader} {wanted : Nat} (h : r.fetch wanted = .ok s) :
    s.bytes = r.bytes.drop (r.chunkSize wanted) := by
  unfold fetch at h
  cases hd : Utf8.decodeBeginning (r.held ++ r.bytes.take (r.chunkSize wanted)) with
  | error e => simp [hd, bind, Except.bind] at h
  | ok p =>
    simp only [hd, bind, Except.bind, pure, Except.pure, Except.ok.injEq] at h
    rw [← h, bytes_accept]

theorem length_bytes_of_fetch {r s : Reader} {wanted : Nat} (hb : r.bytes ≠ [])
    (h : r.fetch wanted = .ok s) : s.bytes.length < r.bytes.length := by
  have hpos := r.chunkSize_pos wanted
  have hlen : 0 < r.bytes.length := List.length_pos_iff.2 hb
  rw [bytes_of_fetch h, List.length_drop]
  omega

/-- Decodes all that is left, as the end of the text. -/
def finish (r : Reader) : Except Utf8.DecodeError Reader := do
  let cs ← Utf8.decode (r.held ++ r.bytes)
  return { r with bytes := [], held := [] }.accept true cs

/-- Fetches chunks until `wanted` characters are ready or the bytes are at their
end. -/
def fill (r : Reader) (wanted : Nat) : Except Utf8.DecodeError Reader :=
  if wanted ≤ r.ready.length then .ok r
  else if hb : r.bytes = [] then r.finish
  else
    match h : r.fetch (wanted - r.ready.length) with
    | .error e => .error e
    | .ok s =>
      have := length_bytes_of_fetch hb h
      s.fill wanted
termination_by r.bytes.length

/-- Reads `count` characters, or as many as there are, and throws them away. -/
def skip (r : Reader) (count : Nat) : Except Utf8.DecodeError Reader := do
  let r ← r.fill count
  return { r with ready := r.ready.drop count }

/-- Reads all characters that are left. -/
def readAll (r : Reader) : Except Utf8.DecodeError (List Char) := do
  let r ← r.finish
  return r.ready

end Reader

end TapeMips.Text
