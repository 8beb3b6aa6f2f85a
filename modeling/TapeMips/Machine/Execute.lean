import TapeMips.Asm.Program
import TapeMips.Machine.Fault
import TapeMips.Machine.State
import TapeMips.Text.WordChar

/-!
# One instruction

Operands are text until the moment they are used, so an instruction is checked
while it is carried out: first the number of operands, then each operand in the
order in which its value is needed. An instruction makes at most one change to
the state. What it does is worked out first, as an `Effect` that names that
change, and applied only when nothing can fail any more.
-/

namespace TapeMips.Machine

open Asm Text

/-- The one change that an instruction makes to the state. -/
inductive Change where
  | none
  | register (target : Register) (value : Int)
  | cell (address : Nat) (value : UInt8)
  | print (char : Char)
  deriving DecidableEq, Repr

def State.apply (s : State) : Change → State
  | .none => s
  | .register target value => { s with registers := s.registers.write value target }
  | .cell address value => { s with memory := s.memory.setIfInBounds address value }
  | .print char => { s with output := s.output.push char }

/-- Where the program goes after an instruction. -/
inductive Continuation where
  | goto (index : Nat)
  /-- The program has asked to end. -/
  | exit
  deriving DecidableEq, Repr

/-- What an instruction does. -/
structure Effect where
  change : Change
  /-- The input that is left to be read. -/
  input : List Int
  next : Continuation
  deriving DecidableEq, Repr

/-- The fault of an instruction that needs another number of operands. -/
def operandCount (i : Instruction) (expected : Nat) : Fault :=
  .program (.operandCount i.mnemonic expected) i.line

/-- The register that an operand names. -/
def register (i : Instruction) (name : String) : Except Fault Register :=
  match Register.ofName? name with
  | some r => .ok r
  | none => .error (.program (.unknownRegister name) i.line)

/-- The integer that an operand states. -/
def immediate (i : Instruction) (text : String) : Except Fault Int :=
  match Numeral.literal? text with
  | some n => .ok n
  | none => .error (.program (.invalidImmediate text) i.line)

/-- A memory operand: an offset, and in parentheses the register to which it is
added. -/
structure MemoryOperand where
  negative : Bool
  /-- The decimal digits of the offset, of any script. -/
  digits : List Char
  /-- The name of the register with its dollar sign. -/
  base : String
  deriving DecidableEq, Repr

/-- Reads a memory operand such as `-4($sp)`. -/
def MemoryOperand.ofText? (text : String) : Option MemoryOperand :=
  let cs := text.toList
  let negative := cs.head? = some '-'
  let cs := if negative then cs.drop 1 else cs
  let digits := cs.takeWhile Numeral.isDigit
  match cs.dropWhile Numeral.isDigit with
  | '(' :: '$' :: rest =>
    let name := rest.takeWhile isWordChar
    if !digits.isEmpty && !name.isEmpty && rest.dropWhile isWordChar = [')'] then
      some ⟨negative, digits, String.ofList ('$' :: name)⟩
    else none
  | _ => none

/-- The offset of a memory operand. -/
def MemoryOperand.offset (o : MemoryOperand) : Except Fault Int :=
  if o.digits.length ≤ Numeral.maxDigits then
    let n := Numeral.ofDigits 10 (o.digits.filterMap Numeral.digitValue?)
    .ok (if o.negative then -(n : Int) else n)
  else .error (.offsetTooLong o.digits.length)

/-- The address that a memory operand means, if it lies within the size asked for. -/
def address (memorySize : Int) (s : State) (i : Instruction) (text : String) :
    Except Fault Nat := do
  let some operand := MemoryOperand.ofText? text
    | throw (.program (.invalidMemoryOperand text) i.line)
  let offset ← operand.offset
  let base ← register i operand.base
  let a := offset + s.registers.read base
  if 0 ≤ a && a < memorySize then return a.toNat
  else throw (.program (.outOfRange a) i.line)

/-- Adds a constant to a register; `sign` turns the addition into a subtraction. -/
def addImmediate (sign : Int) (s : State) (i : Instruction) : Except Fault Change :=
  match i.operands with
  | [target, source, constant] => do
    let value ← immediate i constant
    let source ← register i source
    let target ← register i target
    return .register target (s.registers.read source + sign * value)
  | _ => throw (operandCount i 3)

/-- Loads a constant. -/
def loadImmediate (i : Instruction) : Except Fault Change :=
  match i.operands with
  | [target, constant] => do
    let value ← immediate i constant
    let target ← register i target
    return .register target value
  | _ => throw (operandCount i 2)

/-- Loads a byte from memory. -/
def loadByte (memorySize : Int) (s : State) (i : Instruction) : Except Fault Change :=
  match i.operands with
  | [target, place] => do
    let a ← address memorySize s i place
    match s.memory[a]? with
    | some cell => return .register (← register i target) cell.toNat
    | none => throw (.beyondMemory a)
  | _ => throw (operandCount i 2)

/-- Stores the low byte of a register. -/
def storeByte (memorySize : Int) (s : State) (i : Instruction) : Except Fault Change :=
  match i.operands with
  | [source, place] => do
    let a ← address memorySize s i place
    let source ← register i source
    if a < s.memory.size then return .cell a (byteOf (s.registers.read source))
    else throw (.beyondMemory a)
  | _ => throw (operandCount i 2)

/-- Goes to a label if two registers are equal, or if they differ. The label is
looked up only when it is needed. -/
def branch (whenEqual : Bool) (p : Program) (pc : Nat) (s : State) (i : Instruction) :
    Except Fault Nat :=
  match i.operands with
  | [left, right, label] => do
    let left ← register i left
    let right ← register i right
    if (s.registers.read left == s.registers.read right) == whenEqual then
      match p.target? label with
      | some index => return index
      | none => throw (.program (.unknownLabel label) i.line)
    else return pc + 1
  | _ => throw (operandCount i 3)

/-- Calls the service whose number is in `$v0`: 10 ends the program, 11 prints a
character and 12 reads the next input, which is zero when there is none left. -/
def callService (pc : Nat) (s : State) (i : Instruction) (input : List Int) :
    Except Fault Effect :=
  if s.registers.v0 = 10 then return ⟨.none, input, .exit⟩
  else if s.registers.v0 = 11 then
    return ⟨.print (Char.ofNat (byteOf s.registers.a0).toNat), input, .goto (pc + 1)⟩
  else if s.registers.v0 = 12 then
    return ⟨.register .v0 (input.headD 0), input.tail, .goto (pc + 1)⟩
  else throw (.program (.unsupportedService s.registers.v0) i.line)

/-- What the instruction `i` at index `pc` of a program does. -/
def effect (memorySize : Int) (p : Program) (pc : Nat) (i : Instruction)
    (input : List Int) (s : State) : Except Fault Effect :=
  let straight (change : Except Fault Change) : Except Fault Effect :=
    change.map fun c => ⟨c, input, .goto (pc + 1)⟩
  let jump (target : Except Fault Nat) : Except Fault Effect :=
    target.map fun index => ⟨.none, input, .goto index⟩
  match i.mnemonic with
  | "addi" => straight (addImmediate 1 s i)
  | "subi" => straight (addImmediate (-1) s i)
  | "li" => straight (loadImmediate i)
  | "lbu" => straight (loadByte memorySize s i)
  | "sb" => straight (storeByte memorySize s i)
  | "beq" => jump (branch true p pc s i)
  | "bne" => jump (branch false p pc s i)
  | "syscall" => callService pc s i input
  | mnemonic => throw (.program (.unsupportedInstruction mnemonic) i.line)

end TapeMips.Machine
