/-!
# Lines of assembly

A line of assembly either names a place in the program or states an operation.
Both the code generator and the disassembler build their text from these two
shapes, so that what is written and what is read back speak of the same things.
-/

namespace TapeMips.Asm

/-- A mnemonic with its operands, all of them still text. -/
structure Operation where
  mnemonic : String
  operands : List String := []
  deriving DecidableEq, Repr

/-- The operation as written: operands follow the mnemonic, separated by commas. -/
def Operation.text (o : Operation) : String :=
  if o.operands.isEmpty then o.mnemonic
  else o.mnemonic ++ " " ++ ", ".intercalate o.operands

inductive Line where
  /-- A name for the place where the next operation stands. -/
  | label (name : String)
  | op (operation : Operation)
  deriving DecidableEq, Repr

def Line.text : Line → String
  | .label name => name ++ ":"
  | .op o => o.text

/-- The text of a sequence of lines, each ended by a line feed. -/
def Line.textOf (lines : List Line) : String :=
  lines.foldl (fun text line => text ++ line.text ++ "\n") ""

theorem Line.foldl_text (text : String) (lines : List Line) :
    lines.foldl (fun text line => text ++ line.text ++ "\n") text =
      text ++ textOf lines := by
  induction lines generalizing text with
  | nil => rw [textOf, List.foldl_nil, List.foldl_nil, String.append_empty]
  | cons line rest ih =>
    rw [textOf, List.foldl_cons, List.foldl_cons, ih, ih]
    simp only [String.empty_append, String.append_assoc]

theorem Line.textOf_cons (line : Line) (rest : List Line) :
    textOf (line :: rest) = line.text ++ "\n" ++ textOf rest := by
  rw [textOf, List.foldl_cons, foldl_text, String.empty_append]

theorem Line.textOf_append (front back : List Line) :
    textOf (front ++ back) = textOf front ++ textOf back := by
  rw [textOf, List.foldl_append, foldl_text]
  rfl

theorem Line.join_textOf (parts : List (List Line)) :
    String.join (parts.map textOf) = textOf parts.flatten := by
  induction parts with
  | nil => rfl
  | cons lines rest ih =>
    rw [List.map_cons, String.join_cons, List.flatten_cons, textOf_append, ih]

end TapeMips.Asm
