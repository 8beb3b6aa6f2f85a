import TapeMips.Asm.Program
import TapeMips.Proofs.Assembled
import Mathlib.Control.Monad.Basic

/-!
# A listing assembles to its program

The lines of a listing are put together from the finished program, operation by
operation with the labels looked up for each. But the program has grown, and its
listing has grown with it: a new label gets the number of operations so far, so
its line comes last (`lines_pushLabel`), and a new operation goes behind the
labels that wait for it (`lines_pushOperation`). Hence the lines of a listing state
the program they were made from, whatever text it came from (`Program.Listed`).

They are tidy, since everything in an assembled program is, and no label stands in
them twice; so they assemble to what they say. The lines are numbered anew. That
is all that can differ.
-/

namespace TapeMips.Asm

open Text

theorem labelsAt_push (p : Program) (name : String) (k index : Nat) :
    Program.labelsAt { p with labels := p.labels.push (name, k) } index =
      p.labelsAt index ++ if k = index then [.label name] else [] := by
  rw [Program.labelsAt, Program.labelsAt, Array.toList_push, List.filter_append,
    List.map_append]
  congr 1
  by_cases h : k = index
  · simp [h]
  · simp [h]

theorem linesFrom_pushLabel (p : Program) (name : String) (index : Nat)
    (code : List Instruction) :
    Program.linesFrom { p with labels := p.labels.push (name,
      index + code.length) } index code = p.linesFrom index code ++ [.label name] := by
  induction code generalizing index with
  | nil =>
      rw [Program.linesFrom, Program.linesFrom, labelsAt_push]
      simp
  | cons i rest ih =>
      have hindex : index + (i :: rest).length = index + 1 + rest.length := by
        rw [List.length_cons]
        omega
      have hlater : index + 1 + rest.length ≠ index := by omega
      rw [hindex, Program.linesFrom, Program.linesFrom, ih, labelsAt_push,
        if_neg hlater]
      simp

theorem lines_pushLabel (p : Program) (name : String) :
    Program.lines { p with labels := p.labels.push (name, p.code.size) } =
      p.lines ++ [.label name] := by
  have h := linesFrom_pushLabel p name 0 p.code.toList
  rwa [Nat.zero_add, Array.length_toList] at h

theorem linesFrom_congr {p q : Program} (h : p.labels = q.labels) (index : Nat)
    (code : List Instruction) : p.linesFrom index code = q.linesFrom index code := by
  induction code generalizing index with
  | nil =>
      rw [Program.linesFrom, Program.linesFrom, Program.labelsAt, h, Program.labelsAt]
  | cons i rest ih =>
      rw [Program.linesFrom, Program.linesFrom, ih, Program.labelsAt, h,
        Program.labelsAt]

theorem linesFrom_append (p : Program) (index : Nat) (code : List Instruction)
    (i : Instruction) :
    p.linesFrom index (code ++ [i]) =
      p.linesFrom index code ++ .op i.toOperation ::
        p.labelsAt (index + code.length + 1) := by
  induction code generalizing index with
  | nil => rfl
  | cons j rest ih =>
      have hindex : index + (j :: rest).length + 1 = index + 1 + rest.length + 1 := by
        rw [List.length_cons]
        omega
      rw [List.cons_append, Program.linesFrom, Program.linesFrom, ih, hindex]
      simp

theorem labelsAt_beyond {p : Program} (h : p.LabelsFit) {index : Nat}
    (hindex : p.code.size < index) :
    p.labelsAt index = [] := by
  rw [Program.labelsAt, List.map_eq_nil_iff, List.filter_eq_nil_iff]
  intro l hl
  have hle := h l hl
  have hne : l.2 ≠ index := by omega
  simpa using hne

theorem lines_pushOperation {p : Program} (h : p.LabelsFit) (i : Instruction) :
    Program.lines { p with code := p.code.push i } =
      p.lines ++ [.op i.toOperation] := by
  have hnone : p.labelsAt (0 + p.code.toList.length + 1) = [] :=
    labelsAt_beyond h (by rw [Array.length_toList]; omega)
  have hsame : Program.labels { p with code := p.code.push i } = p.labels := rfl
  calc Program.lines { p with code := p.code.push i }
      = p.linesFrom 0 (p.code.toList ++ [i]) := by
        rw [Program.lines, Array.toList_push, linesFrom_congr hsame]
    _ = p.lines ++ [.op i.toOperation] := by
        rw [linesFrom_append, hnone]
        rfl

/-- The lines of a program are tidy and say what is in it. -/
structure Program.Listed (p : Program) : Prop where
  tidy : ∀ line ∈ p.lines, line.IsTidy
  operations : operations p.lines = p.code.toList.map (·.toOperation)
  labels : labelTable 0 p.lines = p.labels.toList

theorem Program.Built.listed {p : Program} (h : p.Built) : p.Listed := by
  induction h with
  | start =>
      exact ⟨by simp [Program.lines, Program.linesFrom, Program.labelsAt], rfl, rfl⟩
  | @label p name _ proper _ ih =>
      refine ⟨?_, ?_, ?_⟩
      · rw [lines_pushLabel]
        intro line hline
        rcases List.mem_append.mp hline with hline | hline
        · exact ih.tidy line hline
        · rw [List.mem_singleton.mp hline]
          exact proper
      · rw [lines_pushLabel, operations_append, ih.operations]
        exact List.append_nil _
      · rw [lines_pushLabel, labelTable_append, ih.labels, ih.operations,
          Array.toList_push]
        simp [labelTable]
  | @operation p o built tidy number ih =>
      have hlines := lines_pushOperation built.labelsFit { o with line := number }
      refine ⟨?_, ?_, ?_⟩
      · rw [hlines]
        intro line hline
        rcases List.mem_append.mp hline with hline | hline
        · exact ih.tidy line hline
        · rw [List.mem_singleton.mp hline]
          exact tidy
      · rw [hlines, operations_append, ih.operations, Array.toList_push,
          List.map_append]
        rfl
      · rw [hlines, labelTable_append, ih.labels]
        exact List.append_nil _

/-- The listing of a program that a text assembles to assembles again, to the same
operations and the same labels in the same order. -/
theorem assemble_listing {text : String} {p : Program} (h : assemble text = .ok p) :
    ∃ q, assemble p.listing = .ok q ∧
      q.code.toList.map (·.toOperation) = p.code.toList.map (·.toOperation) ∧
      q.labels = p.labels := by
  have hbuilt := built_assemble h
  have hlisted := hbuilt.listed
  have hnodup : (labelNames p.lines).Nodup := by
    rw [← map_labelTable 0, hlisted.labels]
    exact hbuilt.nodup
  refine ⟨Program.ofLines p.lines, assemble_textOf hlisted.tidy hnodup, ?_, ?_⟩
  · rw [← hlisted.operations]
    exact map_instructions 1 p.lines
  · rw [Program.ofLines, hlisted.labels]

/-- Empty operands, a comma in a mnemonic, a colon behind a digit and an inner
blank survive. -/
theorem assemble_listing_odd :
    let p : Program :=
      ⟨#[⟨⟨"li,x", ["", "u\u00a0v", ""]⟩, 1⟩, ⟨⟨"1:y", []⟩, 2⟩], #[("a", 0),
        ("_b", 0), ("z", 2)]⟩
    assemble "a:\t_b: li,x  , u\u00a0v,# c\x0b1:y\nz:" = .ok p ∧
      p.listing = "a:\n_b:\nli,x , u\u00a0v, \n1:y\nz:\n" ∧
      ∃ q, assemble p.listing = .ok q ∧
        q.code.toList.map (·.toOperation) = p.code.toList.map (·.toOperation) ∧
        q.labels = p.labels := by
  intro p
  have h : assemble "a:\t_b: li,x  , u\u00a0v,# c\x0b1:y\nz:" = .ok p := by
    decide +kernel
  exact ⟨h, by decide +kernel, assemble_listing h⟩

end TapeMips.Asm
