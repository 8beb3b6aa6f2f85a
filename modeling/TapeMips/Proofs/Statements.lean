import TapeMips.Asm.Program

/-!
# Texts as sequences of statements

Assembling is a loop over lines with another one in it, over the labels in front
of the operation on a line. But the inner loop adds to the same program as the
outer one, and all it needs to know of its line is the number. So a text is as
good as a single sequence of statements, each a label or an operation with the
number of its line, and to assemble it is to add them one by one
(`addLines_eq_foldlM`). Whatever is to be shown of every assembled program needs
one case for each of the two and one induction.

A text that stands further down states the same with larger numbers
(`statements_raise`).
-/

namespace TapeMips.Asm

/-- A label or an operation with the number of the line it is on. -/
structure Statement where
  number : Nat
  piece : Line
  deriving DecidableEq, Repr

/-- The same statement some lines further down. -/
def Statement.raise (n : Nat) (s : Statement) : Statement :=
  { s with number := s.number + n }

/-- The statements on one line: its labels, then its operation. -/
def lineStatements (number : Nat) (cs : List Char) : List Statement :=
  (readLine cs).1.map (fun name => ⟨number, .label name⟩) ++
    (readLine cs).2.toList.map fun o => ⟨number, .op o⟩

/-- The statements on some lines; `number` is that of the first line. -/
def statements (number : Nat) : List (List Char) → List Statement
  | [] => []
  | cs :: rest => lineStatements number cs ++ statements (number + 1) rest

/-- Adds what one statement says to a program. -/
def Program.add (p : Program) (s : Statement) : Except DuplicateLabel Program :=
  match s.piece with
  | .label name => p.define s.number name
  | .op o => .ok { p with code := p.code.push { o with line := s.number } }

theorem addLine_eq_foldlM (p : Program) (number : Nat) (cs : List Char) :
    p.addLine number cs = (lineStatements number cs).foldlM Program.add p := by
  rw [Program.addLine, lineStatements, List.foldlM_append, List.foldlM_map]
  obtain ⟨names, o?⟩ := readLine cs
  refine congrArg (Except.bind _) (funext fun q => ?_)
  cases o? with
  | none => rfl
  | some o => rfl

theorem addLines_eq_foldlM (p : Program) (number : Nat) (ls : List (List Char)) :
    p.addLines number ls = (statements number ls).foldlM Program.add p := by
  induction ls generalizing p number with
  | nil => rfl
  | cons cs rest ih =>
      rw [Program.addLines, statements, List.foldlM_append, addLine_eq_foldlM]
      cases (lineStatements number cs).foldlM Program.add p with
      | error e => rfl
      | ok q => exact ih q (number + 1)

theorem statements_append (number : Nat) (xs ys : List (List Char)) :
    statements number (xs ++ ys) =
      statements number xs ++ statements (number + xs.length) ys := by
  induction xs generalizing number with
  | nil => rfl
  | cons cs rest ih =>
      have hlines : number + 1 + rest.length = number + (cs :: rest).length := by
        rw [List.length_cons]
        omega
      rw [List.cons_append, statements, statements, ih, List.append_assoc, hlines]

theorem lineStatements_raise (number n : Nat) (cs : List Char) :
    lineStatements (number + n) cs = (lineStatements number cs).map (·.raise n) := by
  rw [lineStatements, lineStatements, List.map_append, List.map_map, List.map_map]
  rfl

theorem statements_raise (number n : Nat) (ls : List (List Char)) :
    statements (number + n) ls = (statements number ls).map (·.raise n) := by
  induction ls generalizing number with
  | nil => rfl
  | cons cs rest ih =>
      rw [statements, statements, List.map_append, lineStatements_raise,
        Nat.add_right_comm, ih]

end TapeMips.Asm
