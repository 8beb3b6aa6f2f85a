import TapeMips.Machine.State
import TapeMips.Numeral.Integer

/-!
# Faults

An instruction that cannot be carried out names its cause and its line. Two of
the causes contain an integer; where that integer has more decimal digits than
can be written, the message can only say that.

Other faults name no line: an offset with too many digits to be read, and an
address that the size asked for allows but the memory in place does not reach.
An address that no memory could reach is told apart from one that only this
memory does not.
-/

namespace TapeMips.Machine

/-- Why the program is to blame for an instruction that could not be carried out. -/
inductive Cause where
  | operandCount (mnemonic : String) (expected : Nat)
  | unknownRegister (name : String)
  | invalidImmediate (text : String)
  | invalidMemoryOperand (text : String)
  | outOfRange (address : Int)
  | unknownLabel (name : String)
  | unsupportedInstruction (mnemonic : String)
  | unsupportedService (service : Int)
  deriving DecidableEq, Repr

namespace Cause

/-- The integer that the text of a cause contains. -/
def number? : Cause → Option Int
  | .outOfRange address => some address
  | .unsupportedService service => some service
  | _ => none

/-- The text of the cause needs an integer that cannot be written. -/
def isUnwritable (c : Cause) : Bool := c.number?.any Numeral.isTooLong

def text : Cause → String
  | .operandCount mnemonic expected =>
    "'" ++ mnemonic ++ s!"' expects {expected} operands"
  | .unknownRegister name => "Unknown register '" ++ name ++ "'"
  | .invalidImmediate text => "Invalid immediate '" ++ text ++ "'"
  | .invalidMemoryOperand text => "Invalid memory operand '" ++ text ++ "'"
  | .outOfRange address => s!"Memory access out of range: {address}"
  | .unknownLabel name => "Unknown label '" ++ name ++ "'"
  | .unsupportedInstruction mnemonic => "Unsupported instruction '" ++ mnemonic ++ "'"
  | .unsupportedService service => s!"Unsupported syscall {service}"

end Cause

/-- What stops a program in the middle of an instruction. -/
inductive Fault where
  | program (cause : Cause) (line : Nat)
  /-- The offset of a memory operand has this many decimal digits, more than are
  read. -/
  | offsetTooLong (digits : Nat)
  /-- The address is allowed by the size asked for, but the memory in place is
  smaller. -/
  | beyondMemory (address : Nat)
  deriving DecidableEq, Repr

/-- The kinds of faults that a caller tells apart. -/
inductive FaultKind where
  /-- The program cannot be executed. -/
  | program
  /-- A number has too many decimal digits to be read or written. -/
  | numeralTooLong
  /-- The memory in place ends before the address. -/
  | beyondMemory
  deriving DecidableEq, Repr

namespace Fault

def kind : Fault → FaultKind
  | .program cause _ => if cause.isUnwritable then .numeralTooLong else .program
  | .offsetTooLong _ => .numeralTooLong
  | .beyondMemory _ => .beyondMemory

def message : Fault → String
  | .program cause line =>
    if cause.isUnwritable then Numeral.DigitLimit.writing.message
    else cause.text ++ s!" on line {line}"
  | .offsetTooLong digits => (Numeral.DigitLimit.reading digits).message
  | .beyondMemory address =>
    if Numeral.isIndex address then "bytearray index out of range"
    else Numeral.notIndexMessage

end Fault

end TapeMips.Machine
