import TapeMips.Machine.Execute

/-!
# Running a program step by step

An iteration is one pass of a program over a machine. It does nothing until it
is advanced for the first time; then it resets the machine and assembles its
text, and from there on every advance carries out one instruction and reports a
snapshot. The machine is not part of the iteration: several iterations may take
turns on one machine, each with its own program, input and place in it.

An iteration that asks the program to end keeps the place of the instruction
that asked. One that runs off the end of the program reports that with one last
snapshot, which names no instruction.
-/

namespace TapeMips.Machine

open Asm

/-- What is to be run. -/
structure Job where
  assembly : String
  input : List Int := []
  /-- The number of instructions that may be carried out; no limit if there is none. -/
  limit : Option Int := none
  deriving DecidableEq, Repr

/-- What an advance reports. -/
structure Snapshot where
  /-- Instructions carried out so far. -/
  step : Nat
  /-- The index of the instruction that comes next. -/
  pc : Nat
  /-- The instruction that was carried out. -/
  instruction : Option String
  pointer : Int
  output : String
  deriving DecidableEq, Repr

/-- Why an iteration failed. -/
inductive Failure where
  | size (error : SizeError)
  | duplicateLabel (error : DuplicateLabel)
  | stepLimit
  | fault (fault : Fault)
  deriving DecidableEq, Repr

def Failure.message : Failure → String
  | .size e => e.message
  | .duplicateLabel e => e.message
  | .stepLimit => "Program exceeded allowed step count"
  | .fault f => f.message

/-- The place of an iteration in its program. -/
structure Cursor where
  program : Program
  input : List Int
  limit : Option Int
  pc : Nat := 0
  steps : Nat := 0
  deriving DecidableEq, Repr

/-- The limit forbids another instruction. -/
def Cursor.isSpent (c : Cursor) : Bool := c.limit.any (· ≤ (c.steps : Int))

/-- The instruction that the next advance carries out. -/
def Cursor.pending? (c : Cursor) : Option Instruction :=
  if c.isSpent then none else c.program.code[c.pc]?

/-- The line that announces the next instruction in a trace: its index and its text. -/
def Cursor.traceLine? (c : Cursor) : Option String :=
  c.pending?.map fun i =>
    let index := toString c.pc
    "".pushn ' ' (5 - index.length) ++ index ++ ": " ++ i.text

/-- Where an iteration stands. -/
inductive Iteration where
  /-- It has not begun. -/
  | waiting (job : Job)
  | running (cursor : Cursor)
  /-- It has ended, failed or been closed. -/
  | over
  deriving DecidableEq, Repr

/-- What one advance comes to. -/
inductive Turn where
  | snapshot (s : Snapshot)
  /-- There was nothing left to do. -/
  | exhausted
  | failed (failure : Failure)
  deriving DecidableEq, Repr

/-- An advance: its report, and what it leaves. -/
structure Advance where
  turn : Turn
  iteration : Iteration
  machine : Machine
  deriving DecidableEq, Repr

def snapshot (s : State) (step pc : Nat) (instruction : Option String) : Snapshot :=
  { step, pc, instruction, pointer := s.registers.sp, output := s.output }

/-- Carries out the instruction under the cursor, or reports the end of the program. -/
def Cursor.advance (c : Cursor) (m : Machine) : Advance :=
  match c.program.code[c.pc]? with
  | none => ⟨.snapshot (snapshot m.state c.steps c.pc none), .over, m⟩
  | some i =>
    if c.isSpent then ⟨.failed .stepLimit, .over, m⟩
    else
      match effect m.memorySize c.program c.pc i c.input m.state with
      | .error f => ⟨.failed (.fault f), .over, m⟩
      | .ok e =>
        let m := { m with state := m.state.apply e.change }
        let steps := c.steps + 1
        match e.next with
        | .exit => ⟨.snapshot (snapshot m.state steps c.pc (some i.text)), .over, m⟩
        | .goto pc =>
          ⟨.snapshot (snapshot m.state steps pc (some i.text)),
            .running { c with input := e.input, pc, steps }, m⟩

/-- Resets the machine and assembles the job. A label defined twice leaves the
machine reset. -/
def Job.begin (job : Job) (m : Machine) : Machine × Except Failure Cursor :=
  match m.reset with
  | .error e => (m, .error (.size e))
  | .ok m =>
    match assemble job.assembly with
    | .error e => (m, .error (.duplicateLabel e))
    | .ok program => (m, .ok { program, input := job.input, limit := job.limit })

/-- Advances an iteration by one snapshot. -/
def Iteration.advance (it : Iteration) (m : Machine) : Advance :=
  match it with
  | .over => ⟨.exhausted, .over, m⟩
  | .running c => c.advance m
  | .waiting job =>
    match job.begin m with
    | (m, .error e) => ⟨.failed e, .over, m⟩
    | (m, .ok c) => c.advance m

/-- How a sequence of advances stopped. -/
inductive Stop where
  /-- All advances asked for were made. -/
  | paused
  | exhausted
  | failed (failure : Failure)
  deriving DecidableEq, Repr

/-- What a sequence of advances reports and leaves. -/
structure Progress where
  snapshots : List Snapshot
  stop : Stop
  iteration : Iteration
  machine : Machine
  deriving DecidableEq, Repr

/-- Advances up to `count` times, until the iteration has no more to report or
fails. -/
def Iteration.advanceBy : (count : Nat) → Iteration → Machine → Progress
  | 0, it, m => ⟨[], .paused, it, m⟩
  | count + 1, it, m =>
    let a := it.advance m
    match a.turn with
    | .exhausted => ⟨[], .exhausted, a.iteration, a.machine⟩
    | .failed e => ⟨[], .failed e, a.iteration, a.machine⟩
    | .snapshot s =>
      let rest := a.iteration.advanceBy count a.machine
      { rest with snapshots := s :: rest.snapshots }

end TapeMips.Machine
