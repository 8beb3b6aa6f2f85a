import Mathlib.Data.List.Forall2
import TapeMips.Http.Json
import TapeMips.Proofs.Utf8

/-!
# Writing JSON and reading it back

A string is written between quotes, and whatever could end it there or is not
allowed inside is escaped. So the reader, which takes one character or one escape
at a time, gives back the characters one by one (`readString_written`); only the
escapes by number have a computation in them. An object with one member takes five
tokens, and what is read is the object that was written.

Texts are assembled from pieces on the way out, values are written by recursion
when they are sent back in a complaint. Both give the same text.
-/

namespace TapeMips.Http.Json

open Text

/-- The code points between the quotes of a written string. -/
def inner (cs : List Char) : CodePoints := (cs.flatMap writtenChar).map .char

theorem inner_cons (c : Char) (cs : List Char) :
    inner (c :: cs) = (writtenChar c).map .char ++ inner cs := by
  simp [inner]

theorem digitOf?_digitChar {d : Nat} (h : d < 16) :
    Numeral.digitOf? 16 (Nat.digitChar d) = some d := by
  have hall : ∀ d : Fin 16, Numeral.digitOf? 16 (Nat.digitChar d.val) =
      some d.val := by decide
  exact hall ⟨d, h⟩

theorem readString_digit {c : Char} {d : Nat} (h : Numeral.digitOf? 16 c = some d)
    (left value : Nat) (t : StringText) (rest : CodePoints) :
    readString (.numeric left value) t (.char c :: rest) =
      if left ≤ 1 then readString .plain (t.pushUnit (value * 16 + d)) rest
      else readString (.numeric (left - 1) (value * 16 + d)) t rest := by
  simp only [readString, h]

theorem push_char (c : Char) (read : CodePoints) :
    StringText.push { read } (.char c) = { read := .char c :: read } := rfl

theorem pushUnit_control {c : Char} (h : c.toNat < 0x20) (read : CodePoints) :
    StringText.pushUnit { read } c.toNat = { read := .char c :: read } := by
  have hhigh : ¬ (0xD800 ≤ c.toNat && c.toNat ≤ 0xDBFF) = true := by simp; omega
  rw [StringText.pushUnit, if_neg hhigh]
  simp only [Utf8.codePoint_toNat, push_char]

/-- A character is read as it was written. -/
theorem readString_writtenChar (c : Char) (read rest : CodePoints) :
    readString .plain { read } ((writtenChar c).map .char ++ rest) =
      readString .plain { read := .char c :: read } rest := by
  -- The characters with an escape of their own are read by computing; what is
  -- left is written by number or as it is.
  unfold writtenChar
  split
  · rfl
  · rfl
  · rfl
  · rfl
  · rfl
  · rfl
  · rfl
  · next hquote hslash _ _ _ _ _ =>
      split
      · next h =>
          have hzero : Numeral.digitOf? 16 '0' = some 0 := by decide
          have hhigh := digitOf?_digitChar (d := c.toNat / 16) (by omega)
          have hlow := digitOf?_digitChar (d := c.toNat % 16) (by omega)
          have hvalue : (((0 * 16 + 0) * 16 + 0) * 16 + c.toNat / 16) * 16 +
              c.toNat % 16 = c.toNat := by omega
          show readString (.numeric 4 0) { read } (.char '0' :: .char '0' ::
            .char (Nat.digitChar (c.toNat / 16)) ::
            .char (Nat.digitChar (c.toNat % 16)) :: rest) = _
          rw [readString_digit hzero, if_neg (by decide), readString_digit hzero,
            if_neg (by decide), readString_digit hhigh, if_neg (by decide),
            readString_digit hlow, if_pos (by decide), hvalue, pushUnit_control h]
      · next h =>
          simp only [List.map_cons, List.map_nil, List.singleton_append, readString]
          rw [if_neg hquote, if_neg hslash, if_neg h, push_char]

theorem readString_inner (cs : List Char) (read rest : CodePoints) :
    readString .plain { read } (inner cs ++ .char '"' :: rest) =
      some (read.reverse ++ cs.map .char, rest) := by
  induction cs generalizing read with
  | nil => simp [inner, readString, StringText.settle]
  | cons c cs ih =>
      rw [inner_cons, List.append_assoc, readString_writtenChar, ih]
      simp

/-- A string is read as it was written. -/
theorem readString_written (text : String) (rest : CodePoints) :
    readString .plain {} (inner text.toList ++ .char '"' :: rest) =
      some (CodePoints.ofText text, rest) :=
  readString_inner text.toList [] rest

theorem points_writtenString (text : String) :
    CodePoints.ofText (writtenString text) =
      .char '"' :: (inner text.toList ++ [.char '"']) := by
  simp [CodePoints.ofText, writtenString, inner]

/-- What is left of a text is read to its end, however many tokens more than
needed are allowed. -/
def Reads (place : Place) (points : CodePoints) (v : Json) : Prop :=
  ∀ tokens, points.length < tokens → readFrom tokens place points = .ok v

theorem Reads.done (v : Json) : Reads { next := .nothing v } [] v := by
  intro tokens h
  obtain ⟨tokens, rfl⟩ :=
    Nat.exists_eq_add_one_of_ne_zero (Nat.ne_of_gt (Nat.zero_lt_of_lt h))
  rfl

/-- One token is read, unless a blank stands before it or all has been read. -/
theorem Reads.token {place place' : Place} {p : CodePoint} {points rest : CodePoints}
    {v : Json} (hspace : isSpace p = false)
    (htoken : readToken place (p :: points) = .ok (place', rest))
    (hshorter : rest.length ≤ points.length) (h : Reads place' rest v) :
    Reads place (p :: points) v := by
  intro tokens htokens
  have hpos : tokens ≠ 0 := Nat.ne_of_gt (Nat.zero_lt_of_lt htokens)
  obtain ⟨tokens, rfl⟩ := Nat.exists_eq_add_one_of_ne_zero hpos
  have hdrop : (p :: points).dropWhile isSpace = p :: points := by
    rw [List.dropWhile_cons, hspace, if_neg Bool.false_ne_true]
  rw [readFrom, hdrop]
  split
  · next heq => cases heq
  · simp only [htoken]
    exact h tokens (by simp at htokens; omega)

theorem readToken_firstName (name : String) (rest : CodePoints) :
    readToken { stack := [.object [] []], next := .firstName }
        (.char '"' :: (inner name.toList ++ .char '"' :: rest)) =
      .ok ({ next := .colon [] (.ofText name) }, rest) := by
  simp only [readToken, readName, readString_written]
  rfl

theorem readToken_string (value : String) (stack : List Frame) (rest : CodePoints) :
    readToken { stack } (.char '"' :: (inner value.toList ++ .char '"' :: rest)) =
      .ok (deliver (.ofText value) stack, rest) := by
  simp only [readToken, readValue, readScalar, readString_written]
  rfl

/-- An object with one member is read as it was written. -/
theorem read_member (name value : String) :
    read (CodePoints.ofText (writtenObject [(name, writtenString value)])) =
      .ok (.object [(.ofText name, .ofText value)]) := by
  have hpoints : CodePoints.ofText (writtenObject [(name, writtenString value)]) =
      .char '\x7b' :: .char '"' ::
        (inner name.toList ++ .char '"' :: .char ':' :: .char '"' ::
        (inner value.toList ++ .char '"' :: [.char '\x7d'])) := by
    simp [CodePoints.ofText, writtenObject, writtenString, inner]
  rw [read, hpoints]
  refine (?_ : Reads _ _ _) _ (Nat.lt_succ_self _)
  refine .token rfl rfl (Nat.le_refl _) ?_
  refine .token rfl (readToken_firstName name _) (by simp; omega) ?_
  refine .token rfl rfl (Nat.le_refl _) ?_
  refine .token rfl (readToken_string value _ _) (by simp) ?_
  exact .token rfl rfl (Nat.le_refl _) (.done _)

theorem writtenPoints_ofText (text : String) :
    writtenPoints (.ofText text) = .ofText (writtenString text) := by
  rw [points_writtenString, writtenPoints, CodePoints.ofText, List.flatMap_map, inner,
    List.map_flatMap]
  rfl

theorem points_intercalate (texts : List String) :
    CodePoints.ofText (",".intercalate texts) = separated (texts.map .ofText) := by
  induction texts with
  | nil => rfl
  | cons a rest ih =>
      cases rest with
      | nil => simp [separated]
      | cons b rest =>
          rw [String.intercalate_cons_cons, CodePoints.ofText_append,
            CodePoints.ofText_append, ih]
          simp only [separated, List.map_cons, List.intersperse_cons_cons,
            List.flatten_cons, List.append_assoc]
          rfl

/-- An object assembled from written values is the object of these values, written. -/
theorem points_writtenObject {texts : List (String × String)}
    {members : List (CodePoints × Json)}
    (h : List.Forall₂ (fun t m => m.1 = .ofText t.1 ∧
      written (fun _ => true) m.2 = .ofText t.2) texts members) :
    CodePoints.ofText (writtenObject texts) =
      written (fun _ => true) (.object members) := by
  have hmembers : writtenMembers (fun _ => true) members =
      (texts.map fun t => writtenString t.1 ++ ":" ++ t.2).map .ofText := by
    induction h with
    | nil => rfl
    | cons h _ ih =>
        rw [List.map_cons, List.map_cons, ← ih, writtenMembers, if_pos rfl, h.1, h.2,
          writtenPoints_ofText, CodePoints.ofText_append, CodePoints.ofText_append,
          List.append_assoc]
        rfl
  rw [written, hmembers, writtenObject, ← points_intercalate, CodePoints.ofText_append,
    CodePoints.ofText_append]
  rfl

end TapeMips.Http.Json
