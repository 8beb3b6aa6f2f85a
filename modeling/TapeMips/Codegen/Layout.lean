import Mathlib.Algebra.GroupWithZero.Nat
import TapeMips.Codegen.Block
import TapeMips.Source.Brackets

/-!
# Where the code of a source stands

Every command of a source has its block, and the blocks stand one behind the
other in the order of the commands. A bracket's block carries the number of its
loop, which is the number of the opening bracket: a closing bracket looks back
for its partner.

The blocks of one kind of command all hold the same number of instructions, so
the index at which a block begins is a sum over the characters before it.
-/

namespace TapeMips

/-- The number of instructions in the block of a command. -/
def Command.size : Command → Nat
  | .act .right => 1
  | .act .left => 1
  | .act _ => 3
  | .loopOpen => 2
  | .loopClose => 2

theorem Command.size_pos (k : Command) : 0 < k.size := by
  cases k with
  | act a => cases a <;> decide
  | loopOpen => decide
  | loopClose => decide

namespace Codegen

open Asm Source

/-- The block of the character at a position. -/
def blockAt (cs : List Char) (position : Nat) : List Line :=
  match cs[position]?.bind Command.ofChar? with
  | some (.act a) => block a
  | some .loopOpen => loopEntry (toString (loopNumber cs position))
  | some .loopClose => loopExit (toString (loopNumber cs (opening cs position)))
  | none => []

/-- The blocks of all characters before a position. -/
def codeBefore (cs : List Char) (position : Nat) : List Line :=
  (List.range position).flatMap (blockAt cs)

/-- All code of a source. -/
def code (cs : List Char) : List Line := codeBefore cs cs.length ++ programExit

/-- The number of instructions in the block of a character. -/
def blockSize (c : Char) : Nat := ((Command.ofChar? c).map Command.size).getD 0

/-- The index of the instruction with which the block of the character at a
position begins. -/
def offset (cs : List Char) (position : Nat) : Nat :=
  ((cs.take position).map blockSize).sum

end Codegen

end TapeMips
