import TapeMips.Command

/-!
# Balanced brackets

One pass over the source, in constant space, decides whether its brackets
match and how deeply they nest. Besides the depth the pass only remembers
where the outermost loop that is open at the moment began: when the text ends
with a loop open, that one is the first bracket that is never closed.

A closing bracket without a partner is reported at once, so it wins over any
loop left open.
-/

namespace TapeMips.Source

/-- Why a source is not a program. Positions count characters from zero. -/
inductive Malformed where
  /-- A `]` at this position closes nothing. -/
  | unmatchedClose (position : Nat)
  /-- The `[` at this position is the first that is never closed. -/
  | unclosedOpen (position : Nat)
  deriving DecidableEq, Repr

def Malformed.message : Malformed → String
  | .unmatchedClose position => s!"Unmatched ']' at position {position}"
  | .unclosedOpen position => s!"Unclosed '[' at position {position}"

/-- What the pass knows about the characters behind it. -/
structure Nesting where
  /-- Loops open now. -/
  depth : Nat := 0
  /-- The largest number of loops open at any moment. -/
  deepest : Nat := 0
  /-- Where the outermost of the open loops began, if one is open. -/
  outermost : Nat := 0
  deriving DecidableEq, Repr

/-- A loop begins at this position. -/
def Nesting.enter (n : Nesting) (position : Nat) : Nesting where
  depth := n.depth + 1
  deepest := max n.deepest (n.depth + 1)
  outermost := if n.depth = 0 then position else n.outermost

/-- The pass over the characters from `position` on. -/
def Nesting.scan (n : Nesting) (position : Nat) : List Char → Except Malformed Nat
  | [] => if n.depth = 0 then .ok n.deepest else .error (.unclosedOpen n.outermost)
  | c :: rest =>
    match Command.ofChar? c with
    | some .loopOpen => (n.enter position).scan (position + 1) rest
    | some .loopClose =>
      if n.depth = 0 then .error (.unmatchedClose position)
      else Nesting.scan { n with depth := n.depth - 1 } (position + 1) rest
    | _ => n.scan (position + 1) rest

/-- The largest nesting depth of a source, or the reason why it is malformed. -/
def nestingDepth (source : String) : Except Malformed Nat :=
  Nesting.scan {} 0 source.toList

/-- The source is a program. -/
def isBalanced (source : String) : Bool :=
  (nestingDepth source).toBool

/-- The reason why a source is no program, if it is none. -/
def malformed? (source : String) : Option Malformed :=
  match nestingDepth source with
  | .ok _ => none
  | .error e => some e

end TapeMips.Source
