import TapeMips.Source.Brackets

/-!
# The tape machine

What a source means, said without any target code. The machine has a tape of
byte cells, a pointer that may leave the tape on either side, the input that is
left, and the output so far. Moving the pointer is always possible; whatever
looks at the cell under it fails where there is none.

The machine walks over the source from left to right, one character at a time.
Comments are passed over. A bracket looks at the cell: an opening one whose cell
is zero goes behind its partner, and a closing one whose cell is not zero goes
back to just behind its own.
-/

namespace TapeMips.Tape

open Source

/-- What a program works on. -/
structure State where
  cells : Array UInt8
  pointer : Int := 0
  input : List Int := []
  output : String := ""
  deriving DecidableEq, Repr

/-- A tape of cells that are all zero. -/
def State.start (size : Nat) (input : List Int) : State :=
  { cells := Array.replicate size 0, input }

/-- The index of the cell under the pointer. -/
def State.index? (s : State) : Option Nat :=
  if 0 ≤ s.pointer && s.pointer < s.cells.size then some s.pointer.toNat else none

/-- The cell under the pointer. -/
def State.cell? (s : State) : Option UInt8 := s.index?.bind fun i => s.cells[i]?

/-- The state with another cell under the pointer. -/
def State.put (s : State) (i : Nat) (cell : UInt8) : State :=
  { s with cells := s.cells.setIfInBounds i cell }

/-- The next input as a cell; zero when there is none left. -/
def State.nextInput (s : State) : UInt8 := UInt8.ofNat (s.input.headD 0 % 256).toNat

/-- Carries out an action; `none` if it needs a cell and there is none. -/
def State.act? (s : State) : Action → Option State
  | .right => some { s with pointer := s.pointer + 1 }
  | .left => some { s with pointer := s.pointer - 1 }
  | .increment => do
    let i ← s.index?
    return s.put i ((← s.cell?) + 1)
  | .decrement => do
    let i ← s.index?
    return s.put i ((← s.cell?) - 1)
  | .print => do
    return { s with output := s.output.push (Char.ofNat (← s.cell?).toNat) }
  | .read => do
    let i ← s.index?
    return { s.put i s.nextInput with input := s.input.tail }

/-- A machine in the middle of a run. -/
structure Machine where
  source : List Char
  /-- Where the next command stands. -/
  position : Nat := 0
  state : State
  deriving DecidableEq, Repr

/-- What comes of one character. -/
inductive Step where
  /-- The source has no more characters. -/
  | halted (state : State)
  /-- A cell was needed where there is none. -/
  | fault (state : State)
  | next (machine : Machine)
  deriving DecidableEq, Repr

/-- Looks at the cell and goes on at one of two positions. -/
def Machine.test (m : Machine) (ifZero ifNot : Nat) : Step :=
  match m.state.cell? with
  | none => .fault m.state
  | some cell => .next { m with position := if cell = 0 then ifZero else ifNot }

/-- Carries out the character at the position. -/
def Machine.step (m : Machine) : Step :=
  let behind := m.position + 1
  match m.source[m.position]? with
  | none => .halted m.state
  | some c =>
    match Command.ofChar? c with
    | none => .next { m with position := behind }
    | some (.act a) =>
      match m.state.act? a with
      | none => .fault m.state
      | some state => .next { m with position := behind, state }
    | some .loopOpen => m.test (closing m.source m.position + 1) behind
    | some .loopClose => m.test behind (opening m.source m.position + 1)

/-- The machine after a number of characters. -/
def Machine.after : (steps : Nat) → Machine → Step
  | 0, m => .next m
  | n + 1, m =>
    match m.step with
    | .next m => m.after n
    | stopped => stopped

/-- A machine that is about to run a source. -/
def Machine.start (size : Nat) (input : List Int) (source : String) : Machine :=
  { source := source.toList, state := State.start size input }

end TapeMips.Tape
