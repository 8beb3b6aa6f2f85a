import TapeMips.Http.Service
import TapeMips.Proofs.Agreement

/-!
# The size and the characters of a program

The lines of a program are counted by its line feeds. A line holds none itself,
so there are as many as lines were written: one for each move, three for every
other command, and the two that end the program.

None of the five characters that HTML reserves occurs in a program. The blocks
of actions can be looked through; the lines of a loop are not known letter by
letter, but what varies in them is a numeral.
-/

namespace TapeMips.Text

open Http

/-- A character that HTML reserves. -/
def isReserved (c : Char) : Bool := "&<>\"'".toList.contains c

def Unreserved (text : String) : Prop := ∀ c ∈ text.toList, isReserved c = false

instance (text : String) : Decidable (Unreserved text) :=
  decidable_of_iff (text.toList.any isReserved = false) (by simp [Unreserved])

theorem Unreserved.append {a b : String} (ha : Unreserved a) (hb : Unreserved b) :
    Unreserved (a ++ b) := by
  intro c hc
  rw [String.toList_append, List.mem_append] at hc
  rcases hc with hc | hc
  · exact ha c hc
  · exact hb c hc

theorem unreserved_toString (n : Nat) : Unreserved (toString n) := by
  have hnone : ("&<>\"'".toList.all fun c => !c.isDigit) = true := by decide
  intro c hc
  have hdigit := Codegen.isDigit_of_mem_toString hc
  cases hreserved : isReserved c with
  | false => rfl
  | true =>
      have hnot := List.all_eq_true.mp hnone c (List.contains_iff_mem.mp hreserved)
      rw [hdigit] at hnot
      cases hnot

theorem markupChar_eq_self {c : Char} (h : isReserved c = false) :
    markupChar c = [c] := by
  unfold markupChar
  split
  · cases h
  · cases h
  · cases h
  · cases h
  · cases h
  · rfl

theorem markup_eq_self {text : String} (h : Unreserved text) : markup text = text := by
  have hchars : ∀ cs : List Char, (∀ c ∈ cs, isReserved c = false) →
      cs.flatMap markupChar = cs := by
    intro cs hcs
    induction cs with
    | nil => rfl
    | cons c rest ih =>
        rw [List.flatMap_cons, markupChar_eq_self (hcs c List.mem_cons_self),
          ih fun d hd => hcs d (List.mem_cons_of_mem c hd)]
        rfl
  rw [markup, hchars _ h, String.ofList_toList]

end TapeMips.Text

namespace TapeMips.Codegen

open Asm Source

/-- The number of lines that a source is compiled to: one for a move, three for
every other command, two to end the program. -/
def lineTotal (cs : List Char) : Nat :=
  cs.count '>' + cs.count '<' +
    3 * (cs.count '+' + cs.count '-' + cs.count '.' + cs.count ',' +
      cs.count '[' + cs.count ']') + 2

theorem lineTotal_append (xs ys : List Char) :
    lineTotal (xs ++ ys) + 2 = lineTotal xs + lineTotal ys := by
  simp only [lineTotal, List.count_append]
  omega

theorem length_blockAt {cs : List Char} {n : Nat} {c : Char} (h : cs[n]? = some c) :
    (blockAt cs n).length + 2 = lineTotal [c] := by
  rw [blockAt, h, Option.bind_some]
  cases hc : Command.ofChar? c with
  | none =>
      have hnot : c ≠ '>' ∧ c ≠ '<' ∧ c ≠ '+' ∧ c ≠ '-' ∧ c ≠ '.' ∧ c ≠ ',' ∧ c ≠ '[' ∧
          c ≠ ']' := by
        refine ⟨?_, ?_, ?_, ?_, ?_, ?_, ?_, ?_⟩ <;> rintro rfl <;> cases hc
      simp [lineTotal, hnot]
  | some k =>
      obtain rfl := Command.ofChar?_eq_some_iff.mp hc
      cases k with
      | act a => cases a <;> rfl
      | loopOpen => rfl
      | loopClose => rfl

theorem length_codeBefore {cs : List Char} {n : Nat} (hn : n ≤ cs.length) :
    (codeBefore cs n).length + 2 = lineTotal (cs.take n) := by
  induction n with
  | zero => rfl
  | succ n ih =>
      have hc : cs[n]? = some cs[n] := List.getElem?_eq_getElem hn
      have hblock := length_blockAt hc
      have hfront := ih (Nat.le_of_succ_le hn)
      have hsplit := lineTotal_append (cs.take n) [cs[n]]
      rw [codeBefore_succ, List.length_append, take_succ_of_getElem? hc]
      omega

theorem length_code (cs : List Char) : (code cs).length = lineTotal cs := by
  have hfront := length_codeBefore (Nat.le_refl cs.length)
  rw [List.take_length] at hfront
  rw [code, List.length_append, ← hfront]
  rfl

theorem count_textOf {ls : List Line} (h : ∀ line ∈ ls, line.IsTidy) :
    (Line.textOf ls).toList.count '\n' = ls.length := by
  induction ls with
  | nil => rfl
  | cons line rest ih =>
      have hline : line.text.toList.count '\n' = 0 := by
        refine List.count_eq_zero.mpr fun hmem => ?_
        exact absurd (not_isLineEnd_of_mem_text (h line List.mem_cons_self) _ hmem)
          (by decide)
      rw [Line.textOf_cons, String.toList_append, String.toList_append,
        List.count_append, List.count_append, hline,
        ih fun l hl => h l (List.mem_cons_of_mem line hl), List.length_cons,
          Nat.zero_add, Nat.add_comm]
      rfl

/-- A source is compiled to as many lines as its commands take. -/
theorem lineCount_code (cs : List Char) :
    Http.lineCount (Line.textOf (code cs)) = lineTotal cs := by
  rw [Http.lineCount, count_textOf (isTidy_code cs), length_code]

theorem unreserved_block (a : Action) :
    ∀ line ∈ block a, Text.Unreserved line.text := by
  cases a <;> decide +kernel

theorem unreserved_bracket {mnemonic target name : String}
    (hmnemonic : Text.Unreserved mnemonic) (htarget : Text.Unreserved target)
    (hname : Text.Unreserved name) :
    ∀ line ∈ [loadCell "$s0", .op ⟨mnemonic, ["$s0", "$0", target]⟩, .label name],
      Text.Unreserved line.text := by
  have hmiddle : Text.Unreserved " $s0, $0, " := by decide
  intro line hline
  simp only [List.mem_cons, List.not_mem_nil, or_false] at hline
  rcases hline with rfl | rfl | rfl
  · decide +kernel
  · have htext : (Line.op ⟨mnemonic, ["$s0", "$0", target]⟩).text =
        mnemonic ++ " $s0, $0, " ++ target := by
      rw [← String.toList_inj, text_branch, String.toList_append, String.toList_append]
    rw [htext]
    exact (hmnemonic.append hmiddle).append htarget
  · exact hname.append (by decide)

theorem unreserved_code (cs : List Char) :
    ∀ line ∈ code cs, Text.Unreserved line.text := by
  have hnumbered : ∀ {stem : String}, Text.Unreserved stem → ∀ n : Nat,
      Text.Unreserved (stem ++ toString n) :=
    fun h n => h.append (Text.unreserved_toString n)
  have hexit : ∀ line ∈ programExit, Text.Unreserved line.text := by decide +kernel
  intro line hline
  rcases List.mem_append.mp hline with hline | hline
  · obtain ⟨i, _, hi⟩ := List.mem_flatMap.mp hline
    rw [blockAt] at hi
    split at hi
    · exact unreserved_block _ line hi
    · exact unreserved_bracket (by decide) (hnumbered (by decide) _)
        (hnumbered (by decide) _) line hi
    · exact unreserved_bracket (by decide) (hnumbered (by decide) _)
        (hnumbered (by decide) _) line hi
    · cases hi
  · exact hexit line hline

theorem unreserved_textOf {ls : List Line}
    (h : ∀ line ∈ ls, Text.Unreserved line.text) :
    Text.Unreserved (Line.textOf ls) := by
  induction ls with
  | nil => decide
  | cons line rest ih =>
      rw [Line.textOf_cons]
      exact ((h line List.mem_cons_self).append (by decide)).append
        (ih fun l hl => h l (List.mem_cons_of_mem line hl))

end TapeMips.Codegen
