import TapeMips.Machine.Iteration

/-!
# One instruction in place

`effect` works out what an instruction does before anything is changed. Here the
same instruction is carried out on the state itself, one small action after the
other: an operand is looked at when its value is needed, a change is made as soon
as its value is known, and what has been changed when an action fails stays
changed. Nothing in this form keeps a check from coming after a change. Whether
one does is a matter of the order in which each mnemonic goes about its work.
-/

namespace TapeMips.Machine

open Asm

/-- What an instruction works on: the state, and the input that is left to be read. -/
structure Workplace where
  state : State
  input : List Int
  deriving DecidableEq, Repr

/-- Work that may stop with a fault. A fault leaves the workplace as the work has
left it. -/
abbrev InPlace := EStateM Fault Workplace

namespace InPlace

/-- Goes on with the value of an operand, or stops. -/
def check {α : Type} : Except Fault α → InPlace α
  | .ok a => pure a
  | .error f => throw f

def readRegister (i : Instruction) (name : String) : InPlace Int := do
  let r ← check (register i name)
  return (← get).state.registers.read r

def writeRegister (i : Instruction) (name : String) (value : Int) : InPlace Unit := do
  let r ← check (register i name)
  modify fun w => { w with state.registers := w.state.registers.write value r }

/-- The address that a memory operand means at this moment. -/
def locate (memorySize : Int) (i : Instruction) (text : String) : InPlace Nat := do
  check (address memorySize (← get).state i text)

def readCell (a : Nat) : InPlace UInt8 := do
  match (← get).state.memory[a]? with
  | some cell => return cell
  | none => throw (.beyondMemory a)

def writeCell (a : Nat) (value : UInt8) : InPlace Unit := do
  if a < (← get).state.memory.size then
    modify fun w => { w with state.memory := w.state.memory.setIfInBounds a value }
  else throw (.beyondMemory a)

def addImmediate (sign : Int) (i : Instruction) : InPlace Unit :=
  match i.operands with
  | [target, source, constant] => do
    let value ← check (immediate i constant)
    writeRegister i target ((← readRegister i source) + sign * value)
  | _ => throw (operandCount i 3)

def loadImmediate (i : Instruction) : InPlace Unit :=
  match i.operands with
  | [target, constant] => do
    let value ← check (immediate i constant)
    writeRegister i target value
  | _ => throw (operandCount i 2)

def loadByte (memorySize : Int) (i : Instruction) : InPlace Unit :=
  match i.operands with
  | [target, place] => do
    let a ← locate memorySize i place
    writeRegister i target (← readCell a).toNat
  | _ => throw (operandCount i 2)

def storeByte (memorySize : Int) (i : Instruction) : InPlace Unit :=
  match i.operands with
  | [source, place] => do
    let a ← locate memorySize i place
    writeCell a (byteOf (← readRegister i source))
  | _ => throw (operandCount i 2)

def branch (whenEqual : Bool) (p : Program) (pc : Nat) (i : Instruction) :
    InPlace Nat :=
  match i.operands with
  | [left, right, label] => do
    let equal := (← readRegister i left) == (← readRegister i right)
    if equal == whenEqual then
      match p.target? label with
      | some index => return index
      | none => throw (.program (.unknownLabel label) i.line)
    else return pc + 1
  | _ => throw (operandCount i 3)

/-- Prints the character in `$a0`. -/
def printChar : InPlace Unit :=
  modify fun w =>
    let char := Char.ofNat (byteOf w.state.registers.a0).toNat
    { w with state.output := w.state.output.push char }

/-- Takes the next input into `$v0`, zero if there is none left. -/
def readChar : InPlace Unit := do
  match (← get).input with
  | x :: rest => modify fun w => { w with state.registers.v0 := x, input := rest }
  | [] => modify fun w => { w with state.registers.v0 := 0 }

def callService (pc : Nat) (i : Instruction) : InPlace Continuation := do
  let service := (← get).state.registers.v0
  if service = 10 then return .exit
  else if service = 11 then
    printChar
    return .goto (pc + 1)
  else if service = 12 then
    readChar
    return .goto (pc + 1)
  else throw (.program (.unsupportedService service) i.line)

/-- Carries out the instruction `i` at index `pc` of a program. -/
def execute (memorySize : Int) (p : Program) (pc : Nat) (i : Instruction) :
    InPlace Continuation :=
  let straight (work : InPlace Unit) : InPlace Continuation := do
    work
    return .goto (pc + 1)
  match i.mnemonic with
  | "addi" => straight (addImmediate 1 i)
  | "subi" => straight (addImmediate (-1) i)
  | "li" => straight (loadImmediate i)
  | "lbu" => straight (loadByte memorySize i)
  | "sb" => straight (storeByte memorySize i)
  | "beq" => return .goto (← branch true p pc i)
  | "bne" => return .goto (← branch false p pc i)
  | "syscall" => callService pc i
  | mnemonic => throw (.program (.unsupportedInstruction mnemonic) i.line)

end InPlace

/-- Carries out the instruction under the cursor in place, or reports the end of
the program. -/
def Cursor.advanceInPlace (c : Cursor) (m : Machine) : Advance :=
  match c.program.code[c.pc]? with
  | none => ⟨.snapshot (snapshot m.state c.steps c.pc none), .over, m⟩
  | some i =>
    if c.isSpent then ⟨.failed .stepLimit, .over, m⟩
    else
      let steps := c.steps + 1
      match InPlace.execute m.memorySize c.program c.pc i ⟨m.state, c.input⟩ with
      | .error f w => ⟨.failed (.fault f), .over, { m with state := w.state }⟩
      | .ok .exit w =>
        ⟨.snapshot (snapshot w.state steps c.pc (some i.text)), .over,
          { m with state := w.state }⟩
      | .ok (.goto pc) w =>
        ⟨.snapshot (snapshot w.state steps pc (some i.text)),
          .running { c with input := w.input, pc, steps }, { m with state := w.state }⟩

end TapeMips.Machine
