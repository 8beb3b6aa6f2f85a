import TapeMips.Numeral.Integer

/-!
# The state of the machine

The machine has four registers that can be written, one that always holds zero
and goes by two names, a flat memory of bytes, and the output written so far.
Registers hold integers of any size; only memory cells and printed characters
are cut down to a byte.

The size asked for and the memory in place are kept apart, because the size can
be changed at any time and takes effect at the next reset.
-/

namespace TapeMips

namespace Machine

/-- The registers by meaning. -/
inductive Register where
  /-- Reads as zero and ignores what is written to it. -/
  | zero
  /-- The tape pointer. -/
  | sp
  /-- The cell being worked on. -/
  | s0
  /-- The argument of a service. -/
  | a0
  /-- The number of a service, and its answer. -/
  | v0
  deriving DecidableEq, Repr

/-- The names of registers, each with what it stands for. -/
def Register.names : List (String × Register) :=
  [("$0", .zero), ("$zero", .zero), ("$sp", .sp), ("$s0", .s0), ("$a0", .a0),
    ("$v0", .v0)]

def Register.ofName? (name : String) : Option Register := Register.names.lookup name

/-- What the registers hold. -/
structure Registers where
  sp : Int := 0
  s0 : Int := 0
  a0 : Int := 0
  v0 : Int := 0
  deriving DecidableEq, Repr

namespace Registers

def read (r : Registers) : Register → Int
  | .zero => 0
  | .sp => r.sp
  | .s0 => r.s0
  | .a0 => r.a0
  | .v0 => r.v0

def write (r : Registers) (value : Int) : Register → Registers
  | .zero => r
  | .sp => { r with sp := value }
  | .s0 => { r with s0 := value }
  | .a0 => { r with a0 := value }
  | .v0 => { r with v0 := value }

@[simp]
theorem read_zero (r : Registers) : r.read .zero = 0 := rfl

@[simp]
theorem read_write_same (r : Registers) (value : Int) {reg : Register}
    (h : reg ≠ .zero) : (r.write value reg).read reg = value := by
  cases reg <;> first | contradiction | rfl

@[simp]
theorem read_write_other (r : Registers) (value : Int) {a b : Register} (h : a ≠ b) :
    (r.write value a).read b = r.read b := by
  cases a <;> cases b <;> first | contradiction | rfl

end Registers

/-- An integer cut down to a byte, counting modulo 256. -/
def byteOf (n : Int) : UInt8 := UInt8.ofNat (n % 256).toNat

/-- Everything that outlives an instruction. -/
structure State where
  memory : Array UInt8 := #[]
  registers : Registers := {}
  output : String := ""
  deriving DecidableEq, Repr

/-- The state of a machine that has just been switched on. -/
def State.fresh (memorySize : Nat) : State :=
  { memory := Array.replicate memorySize 0 }

end Machine

/-- A machine: its state, and the memory size in force from the next reset on. -/
structure Machine where
  memorySize : Int
  state : Machine.State := {}
  deriving DecidableEq, Repr

namespace Machine

/-- The number of cells from which on no memory is available. This is no rule of
the machine but a property of the host: 64 GiB, more than the hosts that it is
meant for grant to one process. -/
def availableMemory : Nat := Nat.pow 2 36

/-- Why a memory of some size cannot be had. -/
inductive SizeError where
  | negative
  /-- The size is no index. -/
  | notIndex
  /-- There is no room for so many cells. -/
  | unavailable
  deriving DecidableEq, Repr

def SizeError.message : SizeError → String
  | .negative => "negative count"
  | .notIndex => Numeral.notIndexMessage
  | .unavailable => ""

/-- The reason why a memory size cannot be had, if it cannot. -/
def sizeError? (size : Int) : Option SizeError :=
  if !Numeral.isIndex size then some .notIndex
  else if size < 0 then some .negative
  else if availableMemory ≤ size then some .unavailable
  else none

/-- Clears memory, registers and output and puts the size asked for in force. -/
def reset (m : Machine) : Except SizeError Machine :=
  match sizeError? m.memorySize with
  | some e => .error e
  | none => .ok { m with state := State.fresh m.memorySize.toNat }

/-- A new machine. -/
def new (memorySize : Int) : Except SizeError Machine :=
  reset { memorySize }

end Machine

end TapeMips
