import TapeMips.Command
import TapeMips.Asm.Line

/-!
# The code of each command

The tape pointer lives in `$sp`, and `$s0` holds the current cell while it is
tested or changed. Services are called by loading their number into `$v0`:
10 ends the program, 11 prints the character in `$a0`, 12 reads one into `$v0`.

A loop is written as two blocks around its body. Both test the current cell,
so the body is entered and left without a jump back to the opening test; both
carry the loop's number, which makes their labels unique.
-/

namespace TapeMips.Codegen

open Asm

/-- Loads the current cell into a register. -/
def loadCell (register : String) : Line := .op ⟨"lbu", [register, "0($sp)"]⟩

/-- Stores a register into the current cell. -/
def storeCell (register : String) : Line := .op ⟨"sb", [register, "0($sp)"]⟩

/-- Selects the service that the next `syscall` performs. -/
def selectService (number : String) : Line := .op ⟨"li", ["$v0", number]⟩

def callService : Line := .op ⟨"syscall", []⟩

/-- The block of an action. -/
def block : Action → List Line
  | .right => [.op ⟨"addi", ["$sp", "$sp", "1"]⟩]
  | .left => [.op ⟨"subi", ["$sp", "$sp", "1"]⟩]
  | .increment => [loadCell "$s0", .op ⟨"addi", ["$s0", "$s0", "1"]⟩, storeCell "$s0"]
  | .decrement => [loadCell "$s0", .op ⟨"subi", ["$s0", "$s0", "1"]⟩, storeCell "$s0"]
  | .print => [loadCell "$a0", selectService "11", callService]
  | .read => [selectService "12", callService, storeCell "$v0"]

/-- The label in front of the body of the loop with this number. -/
def loopStart (id : String) : String := "LOOP_START" ++ id

/-- The label behind the loop with this number. -/
def loopEnd (id : String) : String := "LOOP_END" ++ id

/-- The block of an opening bracket: skip the loop if the cell is zero. -/
def loopEntry (id : String) : List Line :=
  [loadCell "$s0", .op ⟨"beq", ["$s0", "$0", loopEnd id]⟩, .label (loopStart id)]

/-- The block of a closing bracket: run the body again unless the cell is zero. -/
def loopExit (id : String) : List Line :=
  [loadCell "$s0", .op ⟨"bne", ["$s0", "$0", loopStart id]⟩, .label (loopEnd id)]

/-- The block behind every program. -/
def programExit : List Line := [selectService "10", callService]

/-- What stands for a loop's number in the patterns of the two loop blocks. -/
def idPlaceholder : String := "\x7bid\x7d"

/-- A bracket was given where a command with a block of its own is needed. -/
structure LoopSymbol where
  symbol : String
  deriving DecidableEq, Repr

def LoopSymbol.message (e : LoopSymbol) : String :=
  "Loop symbol '" ++ e.symbol ++ "' has no flat instruction template"

/-- The text that a symbol outside any loop becomes. Comments become nothing, and
brackets have no block that does not depend on their loop. -/
def blockText (symbol : String) : Except LoopSymbol String :=
  match Command.ofText? symbol with
  | some (.act a) => .ok (Line.textOf (block a))
  | some _ => .error ⟨symbol⟩
  | none => .ok ""

end TapeMips.Codegen
