import TapeMips.Codegen.Block

/-!
# The code generator

The generator reads the source once. Numbers of open loops wait on a stack, so
nesting is bounded by memory only, and a closing bracket finds the number of
its own opening one on top.

It does not ask whether the source is balanced. A loop left open simply stays
on the stack, and the program ends as usual; a closing bracket that meets an
empty stack stops the generator there, with what it has written so far.
-/

namespace TapeMips.Codegen

open Asm

/-- How many loops are open and how many have been met. -/
structure LoopContext where
  depth : Nat := 0
  count : Nat := 0
  deriving DecidableEq, Repr

/-- One more loop has been met, and it is open. -/
def LoopContext.enter (k : LoopContext) : LoopContext :=
  { depth := k.depth + 1, count := k.count + 1 }

/-- An open loop has been closed. -/
def LoopContext.leave (k : LoopContext) : LoopContext :=
  { k with depth := k.depth - 1 }

/-- The state of the generator between two characters. -/
structure Generator where
  /-- Numbers of the open loops, innermost first. -/
  openLoops : List Nat := []
  /-- The counts, kept beside the stack; the next loop takes its number from them. -/
  context : LoopContext := {}
  /-- What has been written, the lines of each write by themselves, last first. -/
  written : List (List Line) := []
  deriving DecidableEq, Repr

namespace Generator

def write (g : Generator) (lines : List Line) : Generator :=
  { g with written := lines :: g.written }

/-- The texts that have been written, in order. -/
def pieces (g : Generator) : List String := g.written.reverse.map Line.textOf

/-- The state after one more character, `none` if it closes a loop that was never
opened. A comment is written as nothing. -/
def feed? (g : Generator) (c : Char) : Option Generator :=
  match Command.ofChar? c with
  | some (.act a) => some (g.write (block a))
  | some .loopOpen =>
    let context := g.context.enter
    let id := context.count
    some { g.write (loopEntry (toString id)) with
      openLoops := id :: g.openLoops, context }
  | some .loopClose =>
    match g.openLoops with
    | id :: outer =>
      some { g.write (loopExit (toString id)) with
        openLoops := outer
        context := g.context.leave }
    | [] => none
  | none => some (g.write [])

end Generator

/-- A closing bracket met no open loop. -/
inductive LoopUnderflow where
  | noOpenLoop
  deriving DecidableEq, Repr

def LoopUnderflow.message : LoopUnderflow → String
  | .noOpenLoop => "pop from empty list"

/-- What a run of the generator leaves. -/
structure Generation where
  /-- What was written, piece by piece. -/
  pieces : List String
  context : LoopContext
  /-- Set if the generator stopped before the end of the source. -/
  failure : Option LoopUnderflow := none
  deriving DecidableEq, Repr

/-- All that was written. -/
def Generation.text (g : Generation) : String := String.join g.pieces

/-- Feeds the rest of the source and closes the program. -/
def Generator.finish (g : Generator) : List Char → Generation
  | [] =>
    let g := g.write programExit
    { pieces := g.pieces, context := g.context }
  | c :: rest =>
    match g.feed? c with
    | some g => g.finish rest
    | none =>
      { pieces := g.pieces, context := g.context, failure := some .noOpenLoop }

/-- The code of a source, balanced or not. -/
def generate (source : String) : Generation :=
  Generator.finish {} source.toList

end TapeMips.Codegen
