import TapeMips.Asm.Line
import TapeMips.Text.Layout

/-!
# Assembled programs

Assembling reads a text line by line. Each line may define labels at its start
and may hold one operation behind them; a number sign begins a comment. The
result is the sequence of operations, each with the number of its line, and the
table of labels in the order in which they are defined, each with the index of
the operation that comes next.

Nothing is said here about what operations mean: any mnemonic and any operands
assemble. The only mistake is to define a label twice.

A listing writes an assembled program as text again. Every operation has a line
of its own, and every label stands on the line before the operation that it
names, in the order in which the labels were defined. Labels behind the last
operation come at the end.
-/

namespace TapeMips.Asm

open Text

/-- An operation of a program with the line it came from. -/
structure Instruction extends Operation where
  /-- Lines are counted from one. -/
  line : Nat
  deriving DecidableEq, Repr

/-- An assembled program. -/
structure Program where
  code : Array Instruction := #[]
  /-- Each label with the index of the instruction behind it, in order of
  definition. -/
  labels : Array (String × Nat) := #[]
  deriving DecidableEq, Repr

/-- The index that a label stands for. -/
def Program.target? (p : Program) (name : String) : Option Nat :=
  (p.labels.find? (·.1 == name)).map (·.2)

/-- A label is defined for the second time. -/
structure DuplicateLabel where
  name : String
  line : Nat
  deriving DecidableEq, Repr

def DuplicateLabel.message (e : DuplicateLabel) : String :=
  "Duplicate label '" ++ e.name ++ s!"' on line {e.line}"

def isLabelStart (c : Char) : Bool := c.isAlpha || c == '_'

def isLabelChar (c : Char) : Bool := c.isAlphanum || c == '_'

/-- A label at the very start of a text, with what follows its colon. Labels are
ASCII names. -/
def label? (cs : List Char) : Option (List Char × List Char) :=
  match cs.head?, cs.dropWhile isLabelChar with
  | some c, ':' :: rest =>
    if isLabelStart c then some (cs.takeWhile isLabelChar, rest) else none
  | _, _ => none

theorem length_lt_of_label? {cs name rest : List Char}
    (h : label? cs = some (name, rest)) : rest.length < cs.length := by
  unfold label? at h
  split at h
  next c rest' _ hdrop =>
    split at h
    · have hle : (cs.dropWhile isLabelChar).length ≤ cs.length :=
        (List.dropWhile_suffix _).length_le
      have hlen := congrArg List.length hdrop
      simp only [Option.some.injEq, Prod.mk.injEq] at h
      simp only [List.length_cons] at hlen
      rw [← h.2]
      omega
    · exact absurd h (by simp)
  next => exact absurd h (by simp)

/-- The labels at the start of a text, and what follows them without the blanks
around it. -/
def takeLabels (cs : List Char) : List String × List Char :=
  match h : label? cs with
  | some (name, rest) =>
    have : (trim rest).length < cs.length :=
      Nat.lt_of_le_of_lt (length_trimBy_le _ _) (length_lt_of_label? h)
    let (names, operation) := takeLabels (trim rest)
    (String.ofList name :: names, operation)
  | none => ([], cs)
termination_by cs.length

theorem takeLabels_of_some {cs name rest : List Char}
    (h : label? cs = some (name, rest)) :
    takeLabels cs =
      (String.ofList name :: (takeLabels (trim rest)).1,
        (takeLabels (trim rest)).2) := by
  rw [takeLabels]
  split
  next name' rest' h' =>
    rw [h, Option.some.injEq, Prod.mk.injEq] at h'
    obtain ⟨rfl, rfl⟩ := h'
    rfl
  next h' => exact absurd h' (by simp [h])

theorem takeLabels_of_none {cs : List Char} (h : label? cs = none) :
    takeLabels cs = ([], cs) := by
  rw [takeLabels]
  split
  next h' => exact absurd h' (by simp [h])
  next => rfl

/-- The operation that a text without blanks around it states. The mnemonic ends
at the first blank, and commas separate the operands behind it. -/
def operation? (cs : List Char) : Option Operation :=
  if cs.isEmpty then none
  else
    let mnemonic := cs.takeWhile (!isBlank ·)
    let rest := (cs.dropWhile (!isBlank ·)).dropWhile isBlank
    let operands :=
      if rest.isEmpty then [] else (splitAt ',' rest).map fun o =>
        String.ofList (trim o)
    some ⟨String.ofList mnemonic, operands⟩

/-- What a line says: the labels it defines and the operation it holds. -/
def readLine (cs : List Char) : List String × Option Operation :=
  let (names, rest) := takeLabels (trim (before '#' cs))
  (names, operation? rest)

/-- Defines a label for the instruction that comes next. -/
def Program.define (p : Program) (line : Nat) (name : String) :
    Except DuplicateLabel Program :=
  if (p.target? name).isSome then .error ⟨name, line⟩
  else .ok { p with labels := p.labels.push (name, p.code.size) }

/-- Adds what one line says to a program. -/
def Program.addLine (p : Program) (line : Nat) (cs : List Char) :
    Except DuplicateLabel Program := do
  let (names, operation?) := readLine cs
  let p ← names.foldlM (·.define line ·) p
  match operation? with
  | some operation => return { p with code := p.code.push { operation with line } }
  | none => return p

/-- Adds lines to a program; `line` is the number of the first. -/
def Program.addLines (p : Program) (line : Nat) :
    List (List Char) → Except DuplicateLabel Program
  | [] => .ok p
  | cs :: rest =>
    match p.addLine line cs with
    | .ok p => p.addLines (line + 1) rest
    | .error e => .error e

/-- Assembles a text. -/
def assemble (text : String) : Except DuplicateLabel Program :=
  Program.addLines {} 1 (lines text.toList)

/-- The labels that stand for an index, in the order in which they were defined. -/
def Program.labelsAt (p : Program) (index : Nat) : List Line :=
  (p.labels.toList.filter (·.2 = index)).map fun l => .label l.1

/-- The lines of a program from an index on. -/
def Program.linesFrom (p : Program) (index : Nat) : List Instruction → List Line
  | [] => p.labelsAt index
  | i :: rest => p.labelsAt index ++ .op i.toOperation :: p.linesFrom (index + 1) rest

/-- The lines of a program. -/
def Program.lines (p : Program) : List Line := p.linesFrom 0 p.code.toList

/-- A program as text. -/
def Program.listing (p : Program) : String := Line.textOf p.lines

end TapeMips.Asm
