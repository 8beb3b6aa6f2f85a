import TapeMips.Proofs.Assemble
import Mathlib.Control.Monad.Basic

/-!
# Assembling a text in two parts

A text can be assembled in two parts, if it is cut behind a line feed. Its lines
are then those of the one part and those of the other (`lines_append`), so its
statements are too, with larger numbers in the second part. What remains is to
say what the statements of the second part do behind a program: they do what they
do alone, only further down (`extend_raise`). Since labels have to be different
across both parts, they also have to be in each.

A part that does not assemble is not mended by what comes behind it.
-/

namespace TapeMips.Asm

open Text

/-- A program with another one behind it, whose text begins some lines further down. -/
def Program.followedBy (p : Program) (lineCount : Nat) (q : Program) : Program where
  code := p.code ++ q.code.map fun i => { i with line := i.line + lineCount }
  labels := p.labels ++ q.labels.map fun l => (l.1, l.2 + p.code.size)

theorem map_piece_raise (n : Nat) (sts : List Statement) :
    (sts.map (·.raise n)).map (·.piece) = sts.map (·.piece) := by
  rw [List.map_map]
  rfl

theorem instruction?_raise (n : Nat) (s : Statement) :
    (s.raise n).instruction? = s.instruction?.map fun i =>
      { i with line := i.line + n } := by
  obtain ⟨number, piece⟩ := s
  cases piece with
  | label name => rfl
  | op o => rfl

theorem labelTable_add (index n : Nat) (ls : List Line) :
    labelTable (index + n) ls = (labelTable index ls).map fun l => (l.1, l.2 + n) := by
  induction ls generalizing index with
  | nil => rfl
  | cons line rest ih =>
      cases line with
      | label name => exact congrArg ((name, index + n) :: ·) (ih index)
      | op o =>
          rw [labelTable, labelTable, Nat.add_right_comm]
          exact ih (index + 1)

/-- Statements from further down do behind a program what they do alone. -/
theorem extend_raise (p : Program) (n : Nat) (sts : List Statement) :
    p.extend (sts.map (·.raise n)) = p.followedBy n (Program.extend {} sts) := by
  have hcode : (sts.map (·.raise n)).filterMap (·.instruction?) =
      (sts.filterMap (·.instruction?)).map fun i => { i with line := i.line + n } := by
    rw [List.filterMap_map, List.map_filterMap]
    exact congrArg (sts.filterMap ·) (funext (instruction?_raise n))
  have hlabels : labelTable p.code.size (sts.map (·.piece)) =
      (labelTable 0 (sts.map (·.piece))).map fun l => (l.1, l.2 + p.code.size) := by
    rw [← labelTable_add, Nat.zero_add]
  rw [Program.extend, hcode, map_piece_raise, hlabels]
  simp [Program.followedBy, Program.extend]

theorem stopsBefore_of_lineFeed {a : String} (ha : a = "" ∨ ∃ front, a = front ++ "\n")
    (ys : List Char) : StopsBefore a.toList ys := by
  have hlast : ∀ c ∈ a.toList.getLast?, c = '\n' := by
    intro c hc
    rcases ha with rfl | ⟨front, rfl⟩
    · cases hc
    · rw [String.toList_append] at hc
      exact (Option.some.inj (List.getLast?_concat.symm.trans hc)).symm
  constructor
  · intro c hc
    rw [hlast c hc]
    decide
  · intro hreturn
    exact absurd (hlast '\r' hreturn) (by decide)

theorem statements_of_append {a : String} (ha : a = "" ∨ ∃ front, a = front ++ "\n")
    (b : String) :
    statements 1 (lines (a ++ b).toList) =
      statements 1 (lines a.toList) ++
        (statements 1 (lines b.toList)).map (·.raise (lines a.toList).length) := by
  rw [String.toList_append, lines_append (stopsBefore_of_lineFeed ha b.toList),
    statements_append, statements_raise]

/-- A text that is cut behind a line feed assembles exactly if both parts do and
define no label in common, and then to the programs of the parts behind each
other. A mistake in the first part is reported as if nothing stood behind it. -/
theorem assemble_append {a b : String} (ha : a = "" ∨ ∃ front, a = front ++ "\n") :
    (∀ r, assemble (a ++ b) = .ok r ↔
      ∃ p q, assemble a = .ok p ∧ assemble b = .ok q ∧
        (∀ name ∈ p.names, name ∉ q.names) ∧
        r = p.followedBy (lines a.toList).length q) ∧
    ∀ e, assemble a = .error e → assemble (a ++ b) = .error e := by
  have hstatements := statements_of_append ha b
  constructor
  · intro r
    rw [assemble_eq_ok_iff, hstatements, List.map_append, map_piece_raise,
      labelNames_append, List.nodup_append, extend_append, extend_raise]
    constructor
    · rintro ⟨⟨hfirst, hsecond, hapart⟩, rfl⟩
      refine ⟨_, _, assemble_eq_ok_iff.mpr ⟨hfirst, rfl⟩,
        assemble_eq_ok_iff.mpr ⟨hsecond, rfl⟩, ?_, rfl⟩
      rw [names_extend_empty, names_extend_empty]
      exact fun name hname hagain => hapart name hname name hagain rfl
    · rintro ⟨p, q, hp, hq, hapart, rfl⟩
      obtain ⟨hfirst, rfl⟩ := assemble_eq_ok_iff.mp hp
      obtain ⟨hsecond, rfl⟩ := assemble_eq_ok_iff.mp hq
      rw [names_extend_empty, names_extend_empty] at hapart
      refine ⟨⟨hfirst, hsecond, ?_⟩, rfl⟩
      rintro name hname _ hagain rfl
      exact hapart name hname hagain
  · intro e he
    rw [assemble, addLines_eq_foldlM] at he ⊢
    rw [hstatements, List.foldlM_append, he]
    rfl

/-- The cut is between two line ends, the first of which has two characters. -/
theorem assemble_append_seam :
    let a := "x:\x0by: li $v0, 1 # z:\r\n"
    let b := "\n_z: w:sb $a0, 0($sp)\u2028v:"
    let p : Program := ⟨#[⟨⟨"li", ["$v0", "1"]⟩, 2⟩], #[("x", 0), ("y", 0)]⟩
    let q : Program :=
      ⟨#[⟨⟨"sb", ["$a0", "0($sp)"]⟩, 2⟩], #[("_z", 0), ("w", 0), ("v", 1)]⟩
    (a = "" ∨ ∃ front, a = front ++ "\n") ∧ assemble a = .ok p ∧ assemble b = .ok q ∧
      (∀ name ∈ p.names, name ∉ q.names) ∧
      assemble (a ++ b) = .ok
        ⟨#[⟨⟨"li", ["$v0", "1"]⟩, 2⟩, ⟨⟨"sb", ["$a0", "0($sp)"]⟩, 4⟩],
          #[("x", 0), ("y", 0), ("_z", 1), ("w", 1), ("v", 2)]⟩ ∧
      assemble ("x: x:\n" ++ b) = .error ⟨"x", 1⟩ := by
  intro a b p q
  have ha : a = "" ∨ ∃ front, a = front ++ "\n" :=
    Or.inr ⟨"x:\x0by: li $v0, 1 # z:\r", by decide⟩
  have hp : assemble a = .ok p := by decide +kernel
  have hq : assemble b = .ok q := by decide +kernel
  have hapart : ∀ name ∈ p.names, name ∉ q.names := by decide
  have hwhole := ((assemble_append ha).1 _).mpr ⟨p, q, hp, hq, hapart, rfl⟩
  have hrepeated : assemble "x: x:\n" = .error ⟨"x", 1⟩ := by decide +kernel
  refine ⟨ha, hp, hq, hapart, ?_,
    (assemble_append (Or.inr ⟨"x: x:", by decide⟩)).2 _ hrepeated⟩
  rw [hwhole]
  decide +kernel

end TapeMips.Asm
