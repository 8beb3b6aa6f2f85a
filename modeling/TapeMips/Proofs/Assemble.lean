import TapeMips.Proofs.ReadBack
import TapeMips.Proofs.Statements

/-!
# What a text assembles to

Only one thing can go wrong in assembling, and the rest is a matter of lists. A
text assembles exactly if all its labels are different. Its program then holds
each operation, in order and with the number of its line, and each label with the
number of operations before it (`assemble_eq_ok_iff`). The induction is over the
statements of the text and for every program they are added to.

Tidy lines are the case that matters for code that was generated, and for
listings: there the statements are the lines (`assemble_textOf`).

Everything else about the result is a question about lists. What a jump needs to
know is where it finds things, and the answer is always the same: whatever stands
behind some of the lines has the number of operations in them as its index.
-/

namespace TapeMips.Asm

open Text

/-- The operations among some lines. -/
def operations : List Line → List Operation
  | [] => []
  | .label _ :: rest => operations rest
  | .op o :: rest => o :: operations rest

/-- The names of the labels among some lines. -/
def labelNames : List Line → List String
  | [] => []
  | .label name :: rest => name :: labelNames rest
  | .op _ :: rest => labelNames rest

/-- The operations among some lines as instructions, where the first line has this
number. -/
def instructions (number : Nat) : List Line → List Instruction
  | [] => []
  | .label _ :: rest => instructions (number + 1) rest
  | .op o :: rest => { o with line := number } :: instructions (number + 1) rest

/-- The labels among some lines with their indices, where `index` operations stand
before them. -/
def labelTable (index : Nat) : List Line → List (String × Nat)
  | [] => []
  | .label name :: rest => (name, index) :: labelTable index rest
  | .op _ :: rest => labelTable (index + 1) rest

/-- The program that some lines state. -/
def Program.ofLines (ls : List Line) : Program where
  code := (instructions 1 ls).toArray
  labels := (labelTable 0 ls).toArray

@[simp]
theorem operations_append (xs ys : List Line) :
    operations (xs ++ ys) = operations xs ++ operations ys := by
  induction xs with
  | nil => rfl
  | cons line rest ih =>
      cases line with
      | label name => exact ih
      | op o => exact congrArg (o :: ·) ih

@[simp]
theorem labelNames_append (xs ys : List Line) :
    labelNames (xs ++ ys) = labelNames xs ++ labelNames ys := by
  induction xs with
  | nil => rfl
  | cons line rest ih =>
      cases line with
      | label name => exact congrArg (name :: ·) ih
      | op o => exact ih

theorem operations_flatMap {α : Type} (l : List α) (f : α → List Line) :
    operations (l.flatMap f) = l.flatMap fun x => operations (f x) := by
  induction l with
  | nil => rfl
  | cons x rest ih => rw [List.flatMap_cons, List.flatMap_cons, operations_append, ih]

theorem map_instructions (number : Nat) (ls : List Line) :
    (instructions number ls).map (·.toOperation) = operations ls := by
  induction ls generalizing number with
  | nil => rfl
  | cons line rest ih =>
      cases line with
      | label name => exact ih (number + 1)
      | op o => exact congrArg (o :: ·) (ih (number + 1))

theorem length_instructions (number : Nat) (ls : List Line) :
    (instructions number ls).length = (operations ls).length := by
  rw [← map_instructions number ls, List.length_map]

theorem map_labelTable (index : Nat) (ls : List Line) :
    (labelTable index ls).map (·.1) = labelNames ls := by
  induction ls generalizing index with
  | nil => rfl
  | cons line rest ih =>
      cases line with
      | label name => exact congrArg (name :: ·) (ih index)
      | op o => exact ih (index + 1)

theorem labelTable_append (index : Nat) (xs ys : List Line) :
    labelTable index (xs ++ ys) =
      labelTable index xs ++ labelTable (index + (operations xs).length) ys := by
  induction xs generalizing index with
  | nil => rfl
  | cons line rest ih =>
      cases line with
      | label name => exact congrArg ((name, index) :: ·) (ih index)
      | op o =>
          rw [List.cons_append, labelTable, ih, operations,
            List.length_cons, labelTable, Nat.add_assoc, Nat.add_comm 1]

theorem le_of_mem_labelTable {index : Nat} {ls : List Line} :
    ∀ x ∈ labelTable index ls, x.2 ≤ index + (operations ls).length := by
  induction ls generalizing index with
  | nil =>
      intro x hx
      cases hx
  | cons line rest ih =>
      intro x hx
      cases line with
      | label name =>
          rcases List.mem_cons.mp hx with rfl | hx
          · exact Nat.le_add_right _ _
          · exact ih x hx
      | op o =>
          have hle := ih x hx
          rw [operations, List.length_cons]
          omega

/-- The names of the labels of a program, in order of definition. -/
def Program.names (p : Program) : List String := p.labels.toList.map (·.1)

theorem target?_eq_none_iff {p : Program} {name : String} :
    p.target? name = none ↔ name ∉ p.names := by
  rw [Program.target?, Option.map_eq_none_iff, Array.find?_eq_none, Program.names]
  constructor
  · intro h hmem
    obtain ⟨l, hl, rfl⟩ := List.mem_map.mp hmem
    exact h l (Array.mem_toList_iff.mp hl) (beq_self_eq_true l.1)
  · intro h l hl heq
    exact h (List.mem_map.mpr ⟨l, Array.mem_toList_iff.mpr hl, beq_iff_eq.mp heq⟩)

/-- The instruction that a statement gives. -/
def Statement.instruction? (s : Statement) : Option Instruction :=
  match s.piece with
  | .label _ => none
  | .op o => some { o with line := s.number }

/-- A program with some statements behind it, as if all their labels were new. -/
def Program.extend (p : Program) (sts : List Statement) : Program where
  code := p.code ++ (sts.filterMap (·.instruction?)).toArray
  labels := p.labels ++ (labelTable p.code.size (sts.map (·.piece))).toArray

theorem map_filterMap_instruction? (sts : List Statement) :
    (sts.filterMap (·.instruction?)).map (·.toOperation) =
      operations (sts.map (·.piece)) := by
  induction sts with
  | nil => rfl
  | cons s rest ih =>
      obtain ⟨number, piece⟩ := s
      cases piece with
      | label name => exact ih
      | op o => exact congrArg (o :: ·) ih

theorem size_code_extend (p : Program) (sts : List Statement) :
    (p.extend sts).code.size =
      p.code.size + (operations (sts.map (·.piece))).length := by
  rw [← map_filterMap_instruction?, List.length_map]
  exact Array.size_append

theorem names_extend (p : Program) (sts : List Statement) :
    (p.extend sts).names = p.names ++ labelNames (sts.map (·.piece)) := by
  rw [Program.names, Program.extend, Array.toList_append, List.map_append,
    map_labelTable]
  rfl

theorem names_extend_empty (sts : List Statement) :
    (Program.extend {} sts).names = labelNames (sts.map (·.piece)) :=
  names_extend {} sts

theorem extend_append (p : Program) (xs ys : List Statement) :
    p.extend (xs ++ ys) = (p.extend xs).extend ys := by
  rw [Program.extend, Program.extend.eq_1 (p.extend xs), size_code_extend,
    List.filterMap_append, List.map_append, labelTable_append]
  simp [Program.extend]

theorem add_eq_ok_iff {p r : Program} (hp : p.names.Nodup) (s : Statement) :
    p.add s = .ok r ↔ (p.names ++ labelNames [s.piece]).Nodup ∧ r = p.extend [s] := by
  obtain ⟨number, piece⟩ := s
  cases piece with
  | label name =>
      have hadd : p.add ⟨number, .label name⟩ = p.define number name := rfl
      have hextend : p.extend [⟨number, .label name⟩] =
          { p with labels := p.labels.push (name, p.code.size) } := by
        simp [Program.extend, Statement.instruction?, labelTable]
      have hnew : (p.names ++ [name]).Nodup ↔ p.target? name = none := by
        rw [(List.perm_append_singleton name p.names).nodup_iff, List.nodup_cons,
          and_iff_left hp, target?_eq_none_iff]
      rw [hadd, hextend, Program.define]
      refine Iff.trans ?_ (and_congr_left' hnew.symm)
      cases p.target? name with
      | none => simp [eq_comm]
      | some index => simp
  | op o =>
      have hextend : p.extend [⟨number, .op o⟩] =
          { p with code := p.code.push { o with line := number } } := by
        simp [Program.extend, Statement.instruction?, labelTable]
      rw [hextend]
      simp [Program.add, labelNames, hp, eq_comm]

/-- Statements can be added to a program exactly if no label is defined twice by
them all. -/
theorem addAll_eq_ok_iff {sts : List Statement} {p r : Program} (hp : p.names.Nodup) :
    sts.foldlM Program.add p = .ok r ↔
      (p.names ++ labelNames (sts.map (·.piece))).Nodup ∧ r = p.extend sts := by
  induction sts generalizing p with
  | nil =>
      have hextend : p.extend [] = p := by simp [Program.extend, labelTable]
      simp [hextend, labelNames, hp, pure, Except.pure, eq_comm]
  | cons s rest ih =>
      have hnames : (p.extend [s]).names = p.names ++ labelNames [s.piece] :=
        names_extend p [s]
      have hall : p.names ++ labelNames ((s :: rest).map (·.piece)) =
          (p.extend [s]).names ++ labelNames (rest.map (·.piece)) := by
        rw [hnames, List.append_assoc, ← labelNames_append]
        rfl
      have hextend : p.extend (s :: rest) = (p.extend [s]).extend rest :=
        extend_append p [s] rest
      rw [List.foldlM_cons, hall, hextend]
      cases hadd : p.add s with
      | error e =>
          refine iff_of_false (by rintro ⟨⟩) fun h => ?_
          have hnew := (List.nodup_append.mp h.1).1
          rw [hnames] at hnew
          rw [(add_eq_ok_iff hp s).mpr ⟨hnew, rfl⟩] at hadd
          cases hadd
      | ok q =>
          obtain ⟨hnew, rfl⟩ := (add_eq_ok_iff hp s).mp hadd
          exact ih (by rwa [hnames])

/-- A text assembles exactly if no label stands in it twice, and then to what it
states. -/
theorem assemble_eq_ok_iff {text : String} {p : Program} :
    assemble text = .ok p ↔
      (labelNames ((statements 1 (lines text.toList)).map (·.piece))).Nodup ∧
        p = Program.extend {} (statements 1 (lines text.toList)) := by
  rw [assemble, addLines_eq_foldlM]
  exact addAll_eq_ok_iff List.nodup_nil

/-- A tidy line states what it says. -/
theorem statements_text {line : Line} (h : line.IsTidy) (number : Nat)
    (rest : List (List Char)) :
    statements number (line.text.toList :: rest) =
      ⟨number, line⟩ :: statements (number + 1) rest := by
  rw [statements, lineStatements, readLine_text h]
  cases line with
  | label name => rfl
  | op o => rfl

theorem pieces_statements_text {ls : List Line} (h : ∀ line ∈ ls, line.IsTidy)
    (number : Nat) :
    (statements number (ls.map fun line => line.text.toList)).map (·.piece) = ls := by
  induction ls generalizing number with
  | nil => rfl
  | cons line rest ih =>
      rw [List.map_cons, statements_text (h line List.mem_cons_self), List.map_cons,
        ih fun l hl => h l (List.mem_cons_of_mem line hl)]

theorem instructions_statements_text {ls : List Line} (h : ∀ line ∈ ls, line.IsTidy)
    (number : Nat) :
    (statements number (ls.map fun line => line.text.toList)).filterMap
      (·.instruction?) = instructions number ls := by
  induction ls generalizing number with
  | nil => rfl
  | cons line rest ih =>
      have ihrest := ih (fun l hl => h l (List.mem_cons_of_mem line hl)) (number + 1)
      rw [List.map_cons, statements_text (h line List.mem_cons_self)]
      cases line with
      | label name => exact ihrest
      | op o => exact congrArg ({ o with line := number } :: ·) ihrest

/-- Tidy lines with different labels assemble to what they say. -/
theorem assemble_textOf {ls : List Line} (htidy : ∀ line ∈ ls, line.IsTidy)
    (hnodup : (labelNames ls).Nodup) :
    assemble (Line.textOf ls) = .ok (Program.ofLines ls) := by
  rw [assemble_eq_ok_iff, lines_textOf htidy, pieces_statements_text htidy]
  refine ⟨hnodup, ?_⟩
  rw [Program.extend, pieces_statements_text htidy, instructions_statements_text htidy]
  simp [Program.ofLines]

/-- These operations stand one behind the other in a program, the first of them at
an index. -/
def Program.StandsAt (p : Program) (index : Nat) (ops : List Operation) : Prop :=
  ∀ k o, ops[k]? = some o → ∃ line, p.code[index + k]? = some { o with line }

theorem ofLines_standsAt {ls : List Line} {front ops back : List Operation}
    (h : operations ls = front ++ (ops ++ back)) :
    (Program.ofLines ls).StandsAt front.length ops := by
  intro k o hk
  have hlt : k < ops.length := (List.getElem?_eq_some_iff.mp hk).1
  have hall : (operations ls)[front.length + k]? = some o := by
    rw [h, List.getElem?_append_right (Nat.le_add_right _ _), Nat.add_sub_cancel_left,
      List.getElem?_append_left hlt, hk]
  rw [← map_instructions 1, List.getElem?_map] at hall
  obtain ⟨i, hi, rfl⟩ := Option.map_eq_some_iff.mp hall
  refine ⟨i.line, ?_⟩
  rw [Program.ofLines, List.getElem?_toArray, hi]

theorem ofLines_target? {ls front back : List Line} {name : String}
    (h : ls = front ++ .label name :: back) (hnodup : (labelNames ls).Nodup) :
    (Program.ofLines ls).target? name = some (operations front).length := by
  subst h
  have hnew : name ∉ labelNames front := by
    intro hmem
    rw [labelNames_append] at hnodup
    exact (List.nodup_append.mp hnodup).2.2 name hmem name List.mem_cons_self rfl
  have hnone : (labelTable 0 front).find? (·.1 == name) = none := by
    rw [List.find?_eq_none]
    intro x hx heq
    refine hnew ?_
    rw [← map_labelTable 0 front]
    exact List.mem_map.mpr ⟨x, hx, beq_iff_eq.mp heq⟩
  rw [Program.target?, Program.ofLines, List.find?_toArray, labelTable_append,
    List.find?_append, hnone, Option.none_or, labelTable,
    List.find?_cons_of_pos (by exact beq_self_eq_true name), Option.map_some,
      Nat.zero_add]

theorem ofLines_isSome_target? (ls : List Line) (name : String) :
    ((Program.ofLines ls).target? name).isSome = true ↔ name ∈ labelNames ls := by
  rw [Program.target?, Option.isSome_map, Program.ofLines, List.find?_toArray,
    List.find?_isSome, ← map_labelTable 0 ls, List.mem_map]
  constructor
  · rintro ⟨x, hx, heq⟩
    exact ⟨x, hx, beq_iff_eq.mp heq⟩
  · rintro ⟨x, hx, heq⟩
    exact ⟨x, hx, beq_iff_eq.mpr heq⟩

end TapeMips.Asm
