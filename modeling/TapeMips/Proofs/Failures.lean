import TapeMips.Proofs.Assembled
import TapeMips.Proofs.Sessions

/-!
# How a run can fail

The text of a program is arbitrary, so a run may fail in many ways; but they are
the ways that are foreseen. A failure blames the program, unless a number has more
digits than can be read or written (`Excused`).

What has to be excluded is an access to something that is not there. The machine
of a run was reset when the run began, so its memory is as large as the size that
addresses are checked against. The assembler gives a label the number of
instructions that it has read so far, so no label lies behind the end of the
program; neither does the instruction behind one that is there. Hence the place of
a run never leaves the program by more than its end (`Guarded`), which is where a
run stops.
-/

namespace TapeMips.Asm

theorem mem_labels_of_target? {p : Program} {name : String} {index : Nat}
    (h : p.target? name = some index) : (name, index) ∈ p.labels.toList := by
  obtain ⟨l, hl, rfl⟩ := Option.map_eq_some_iff.mp h
  have hbeq := Array.find?_some hl
  rw [← beq_iff_eq.mp hbeq]
  exact Array.mem_toList_iff.mpr (Array.mem_of_find?_eq_some hl)

end TapeMips.Asm

namespace TapeMips.Machine

open Asm

theorem Performs.goto_known {size : Int} {p : Program} {pc : Nat} {i : Instruction}
    {input : List Int} {s : State} {e : Effect} (h : Performs size p pc i input s e)
    {k : Nat} (hnext : e.next = .goto k) :
    k = pc + 1 ∨ ∃ name, (name, k) ∈ p.labels.toList := by
  cases h with
  | jump _ _ _ _ _ htarget =>
      cases hnext
      exact Or.inr ⟨_, mem_labels_of_target? htarget⟩
  | exit => cases hnext
  | add => cases hnext; exact Or.inl rfl
  | constant => cases hnext; exact Or.inl rfl
  | load => cases hnext; exact Or.inl rfl
  | store => cases hnext; exact Or.inl rfl
  | pass => cases hnext; exact Or.inl rfl
  | print => cases hnext; exact Or.inl rfl
  | read => cases hnext; exact Or.inl rfl

theorem Performs.goto_le {size : Int} {p : Program} {pc : Nat} {i : Instruction}
    {input : List Int} {s : State} {e : Effect} (h : Performs size p pc i input s e)
    (hfit : p.LabelsFit) (hpc : pc < p.code.size) {k : Nat}
    (hnext : e.next = .goto k) : k ≤ p.code.size := by
  rcases h.goto_known hnext with rfl | ⟨name, hlabel⟩
  · exact hpc
  · exact hfit _ hlabel

theorem memorySize_advance (c : Cursor) (m : Machine) :
    (c.advance m).machine.memorySize = m.memorySize := by
  have h := advances c m
  generalize c.advance m = a at h
  cases h <;> rfl

/-- The run is about to begin with its job, is somewhere in the program of the
job, or is over, on a machine whose memory is as large as the size asked for. -/
structure Guarded (job : Job) (size : Int) (r : Run) : Prop where
  asked : r.machine.memorySize = size
  sound : Sound size r.machine
  waiting : ∀ j, r.iteration = .waiting j → j = job
  running : ∀ c, r.iteration = .running c →
    assemble job.assembly = .ok c.program ∧ c.pc ≤ c.program.code.size

theorem Guarded.running_advance {job : Job} {c : Cursor} (m : Machine)
    (hassemble : assemble job.assembly = .ok c.program) {c' : Cursor}
    (h : (c.advance m).iteration = .running c') :
    assemble job.assembly = .ok c'.program ∧ c'.pc ≤ c'.program.code.size := by
  have hadvance := advances c m
  generalize c.advance m = a at hadvance h
  cases hadvance with
  | finished => cases h
  | spent => cases h
  | fault => cases h
  | exit => cases h
  | goto hcode _ heffect =>
      cases h
      have hpc : c.pc < c.program.code.size := (Array.getElem?_eq_some_iff.mp hcode).1
      exact ⟨hassemble,
        (performs_of_effect heffect).goto_le (labelsFit_assemble hassemble) hpc rfl⟩

theorem Guarded.step {job : Job} {size : Int} (hsize : sizeError? size = none)
    {r : Run} (h : Guarded job size r) : Guarded job size r.step := by
  cases houtcome : r.outcome with
  | some result =>
      rw [Run.step_settled houtcome]
      exact h
  | none =>
      cases hiteration : r.iteration with
      | «over» =>
          rw [Run.step_over houtcome hiteration]
          exact ⟨h.asked, h.sound, h.waiting, h.running⟩
      | running c =>
          obtain ⟨hassemble, -⟩ := h.running c hiteration
          obtain ⟨hiteration', hmachine, -⟩ := Run.step_running houtcome hiteration
          have hbegun := hasBegun_advance c r.machine
          refine ⟨?_, ?_, fun j hj => ?_, fun c' hc' => ?_⟩
          · rw [hmachine, memorySize_advance]
            exact h.asked
          · rw [hmachine]
            exact h.sound.advance c
          · rw [← hiteration', hj] at hbegun
            exact absurd hbegun id
          · rw [hiteration'] at hc'
            exact Guarded.running_advance r.machine hassemble hc'
      | waiting j =>
          have hjob := h.waiting j hiteration
          subst hjob
          have hasked := h.asked
          subst hasked
          have hsound := Sound.renewed (nonneg_of_sizeError? hsize)
          cases hassemble : assemble j.assembly with
          | error e =>
              rw [Run.step_waiting_error houtcome hiteration
                (begin_of_duplicate hsize hassemble)]
              exact ⟨rfl, hsound, nofun, nofun⟩
          | ok p =>
              rw [Run.step_waiting_ok houtcome hiteration
                (begin_of_assembled hsize hassemble)]
              refine ⟨rfl, hsound, nofun, fun c hc => ?_⟩
              cases hc
              exact ⟨hassemble, Nat.zero_le _⟩

theorem Guarded.carryOn {job : Job} {size : Int} (hsize : sizeError? size = none)
    {r : Run} (h : Guarded job size r) (n : Nat) : Guarded job size (r.carryOn n) := by
  induction n generalizing r with
  | zero => exact h
  | succ n ih =>
      rw [Run.carryOn_succ]
      exact ih (h.step hsize)

theorem sizeError?_of_new {size : Int} {m : Machine} (h : Machine.new size = .ok m) :
    sizeError? size = none := by
  rw [Machine.new, reset] at h
  cases herror : sizeError? size with
  | none => rfl
  | some e =>
      rw [herror] at h
      cases h

theorem guarded_start {size : Int} {m : Machine} (h : Machine.new size = .ok m)
    (job : Job) (traced : Bool) : Guarded job size (Run.start job m traced) := by
  obtain ⟨hpos, rfl, -⟩ := new_eq_ok h
  refine ⟨rfl, Sound.renewed (m := { memorySize := size }) hpos, fun j hj => ?_, nofun⟩
  cases hj
  rfl

/-! ## Operands are counted before they are looked at

An instruction with the wrong number of operands says so whatever they are.
`arity?` is the table of the numbers that the mnemonics check, each for
itself. -/

/-- The number of operands that a mnemonic takes, where it is checked. -/
def arity? : String → Option Nat
  | "addi" | "subi" | "beq" | "bne" => some 3
  | "li" | "lbu" | "sb" => some 2
  | _ => none

section Count

variable {size : Int} {p : Program} {pc : Nat} {i : Instruction} {input : List Int}
  {s : State}

theorem addImmediate_of_count (h : i.operands.length ≠ 3) (sign : Int) :
    addImmediate sign s i = .error (operandCount i 3) := by
  rw [addImmediate]
  split
  · next hoperands => exact absurd (congrArg List.length hoperands) h
  · rfl

theorem loadImmediate_of_count (h : i.operands.length ≠ 2) :
    loadImmediate i = .error (operandCount i 2) := by
  rw [loadImmediate]
  split
  · next hoperands => exact absurd (congrArg List.length hoperands) h
  · rfl

theorem loadByte_of_count (h : i.operands.length ≠ 2) :
    loadByte size s i = .error (operandCount i 2) := by
  rw [loadByte]
  split
  · next hoperands => exact absurd (congrArg List.length hoperands) h
  · rfl

theorem storeByte_of_count (h : i.operands.length ≠ 2) :
    storeByte size s i = .error (operandCount i 2) := by
  rw [storeByte]
  split
  · next hoperands => exact absurd (congrArg List.length hoperands) h
  · rfl

theorem branch_of_count (h : i.operands.length ≠ 3) (whenEqual : Bool) :
    branch whenEqual p pc s i = .error (operandCount i 3) := by
  rw [branch]
  split
  · next hoperands => exact absurd (congrArg List.length hoperands) h
  · rfl

theorem effect_of_count {n : Nat} (harity : arity? i.mnemonic = some n)
    (h : i.operands.length ≠ n) :
    effect size p pc i input s = .error (operandCount i n) := by
  unfold arity? at harity
  split at harity
  · next hmnemonic =>
      cases harity
      simp only [effect, hmnemonic, addImmediate_of_count h, Except.map]
  · next hmnemonic =>
      cases harity
      simp only [effect, hmnemonic, addImmediate_of_count h, Except.map]
  · next hmnemonic =>
      cases harity
      simp only [effect, hmnemonic, branch_of_count h, Except.map]
  · next hmnemonic =>
      cases harity
      simp only [effect, hmnemonic, branch_of_count h, Except.map]
  · next hmnemonic =>
      cases harity
      simp only [effect, hmnemonic, loadImmediate_of_count h, Except.map]
  · next hmnemonic =>
      cases harity
      simp only [effect, hmnemonic, loadByte_of_count h, Except.map]
  · next hmnemonic =>
      cases harity
      simp only [effect, hmnemonic, storeByte_of_count h, Except.map]
  · cases harity

end Count

/-- The failure is the program's, and says so. -/
def Failure.blamesProgram : Failure → Bool
  | .size _ => false
  | .duplicateLabel _ | .stepLimit => true
  | .fault f => f.kind = .program

/-- The failures of a run that are due to the number of digits that can be read or
written: an instruction that the run comes to has an offset with too many digits,
or the text of a failure needs a number that cannot be written. -/
inductive Excused (r : Run) : Failure → Prop where
  | offset {n : Nat} {c : Cursor} {i : Instruction} {x place : String}
      {o : MemoryOperand} (running : (r.carryOn n).iteration = .running c)
      (pending : c.pending? = some i)
      (mnemonic : i.mnemonic = "lbu" ∨ i.mnemonic = "sb")
      (operands : i.operands = [x, place])
      (operand : MemoryOperand.ofText? place = some o)
      (long : Numeral.maxDigits < o.digits.length) :
      Excused r (.fault (.offsetTooLong o.digits.length))
  | message {cause : Cause} {line : Nat} {number : Int}
      (contains : cause.number? = some number)
      (long : Numeral.isTooLong number = true) :
      Excused r (.fault (.program cause line))

theorem blames_or_excused_of_blamed (r : Run) (cause : Cause) (line : Nat) :
    (Failure.fault (.program cause line)).blamesProgram = true ∨
      Excused r (.fault (.program cause line)) := by
  cases hunwritable : cause.isUnwritable with
  | false =>
      refine Or.inl ?_
      rw [Failure.blamesProgram, Fault.kind, hunwritable]
      rfl
  | true =>
      rw [Cause.isUnwritable, Option.any_eq_true] at hunwritable
      obtain ⟨number, hnumber, hlong⟩ := hunwritable
      exact Or.inr (.message hnumber hlong)

theorem pending?_eq_some {c : Cursor} {i : Instruction}
    (hcode : c.program.code[c.pc]? = some i) (hleft : c.isSpent = false) :
    c.pending? = some i := by
  rw [Cursor.pending?, hleft]
  exact hcode

/-- A run in the middle of a program fails in a way that is foreseen. -/
theorem Guarded.fails {job : Job} {size : Int} {r : Run} {n : Nat}
    (h : Guarded job size (r.carryOn n)) {c : Cursor}
    (hrunning : (r.carryOn n).iteration = .running c) {e : Failure}
    (hfail : (c.advance (r.carryOn n).machine).turn = .failed e) :
    e.blamesProgram = true ∨ Excused r e := by
  have hadvance := advances c (r.carryOn n).machine
  generalize c.advance (r.carryOn n).machine = a at hadvance hfail
  cases hadvance with
  | finished => cases hfail
  | exit => cases hfail
  | goto => cases hfail
  | spent =>
      cases hfail
      exact Or.inl rfl
  | fault hcode hleft heffect =>
      cases hfail
      cases refuses_of_effect heffect with
      | blamed cause => exact blames_or_excused_of_blamed r cause _
      | offset hmnemonic hoperands hoperand hlong =>
          exact Or.inr (.offset hrunning (pending?_eq_some hcode hleft)
            hmnemonic hoperands hoperand hlong)
      | beyond _ _ haddress hle =>
          have hlt := address_lt haddress
          have hsize := h.sound.size
          rw [h.asked] at hlt
          omega

/-- A run fails in a way that is foreseen. -/
theorem Guarded.ends {job : Job} {size : Int} (hsize : sizeError? size = none)
    {r : Run} (h : Guarded job size r) (hstart : r.outcome = none) {e : Failure}
    {m : Machine} (hends : r.Ends (.error e) m) :
    e.blamesProgram = true ∨ Excused r e := by
  obtain ⟨n, hn, -⟩ := hends
  obtain ⟨k, hgoing, hlast⟩ := Run.exists_last_step hstart hn
  have hguarded := h.carryOn hsize k
  cases hiteration : (r.carryOn k).iteration with
  | «over» =>
      rw [Run.step_over hgoing hiteration] at hlast
      cases hlast
  | running c =>
      obtain ⟨-, -, houtcome⟩ := Run.step_running hgoing hiteration
      obtain ⟨f, hfail, hf⟩ := (houtcome _).mp hlast
      cases hf
      exact hguarded.fails hiteration hfail
  | waiting j =>
      have hgranted : sizeError? (r.carryOn k).machine.memorySize = none := by
        rw [hguarded.asked, hsize]
      cases hassemble : assemble j.assembly with
      | ok p =>
          rw [Run.step_waiting_ok hgoing hiteration
            (begin_of_assembled hgranted hassemble), hgoing] at hlast
          cases hlast
      | error d =>
          rw [Run.step_waiting_error hgoing hiteration
            (begin_of_duplicate hgranted hassemble)] at hlast
          cases hlast
          exact Or.inl rfl

/-- Whatever the run looks up next is there, or is asked for first. -/
structure InBounds (job : Job) (size : Int) (r : Run) : Prop where
  memory_size : r.machine.memorySize = size ∧
    (r.machine.state.memory.size : Int) = size
  address_lt : ∀ i place a, address r.machine.memorySize r.machine.state i place =
    .ok a →
    a < r.machine.state.memory.size
  register_known : ∀ i name reg, register i name = .ok reg →
    (name, reg) ∈ Register.names
  program : ∀ c, r.iteration = .running c → assemble job.assembly = .ok c.program
  pc_le : ∀ c, r.iteration = .running c → c.pc ≤ c.program.code.size
  label_le : ∀ c, r.iteration = .running c →
    ∀ l ∈ c.program.labels.toList, l.2 ≤ c.program.code.size
  /-- An instruction leads to the one behind it or to a label of the program. -/
  next_known : ∀ c i e k, r.iteration = .running c →
    effect r.machine.memorySize c.program c.pc i c.input r.machine.state = .ok e →
    e.next = .goto k → k = c.pc + 1 ∨ ∃ name, (name, k) ∈ c.program.labels.toList
  operands_counted : ∀ c i n, r.iteration = .running c → arity? i.mnemonic = some n →
    i.operands.length ≠ n →
    effect r.machine.memorySize c.program c.pc i c.input r.machine.state =
      .error (operandCount i n)

theorem Guarded.inBounds {job : Job} {size : Int} {r : Run} (h : Guarded job size r) :
    InBounds job size r where
  memory_size := ⟨h.asked, h.sound.size⟩
  address_lt := by
    intro i place a haddress
    have hlt := Machine.address_lt haddress
    have hsize := h.sound.size
    rw [h.asked] at hlt
    omega
  register_known := by
    intro i name reg hregister
    obtain ⟨front, back, hsplit, -⟩ :=
      List.lookup_eq_some_iff.mp (register_eq_ok hregister)
    rw [hsplit]
    exact List.mem_append_right front List.mem_cons_self
  program := fun c hc => (h.running c hc).1
  pc_le := fun c hc => (h.running c hc).2
  label_le := fun c hc => labelsFit_assemble (h.running c hc).1
  next_known := by
    intro c i e k _ heffect hnext
    exact (performs_of_effect heffect).goto_known hnext
  operands_counted := fun _ _ _ _ harity hcount => effect_of_count harity hcount

/-- On a new machine of any size, any text, input and limit: a run fails in a way
that is foreseen, and at every point what it looks up next is there. -/
theorem run_inBounds {size : Int} {m : Machine} (hnew : Machine.new size = .ok m)
    (job : Job) (traced : Bool) :
    (∀ e m', (Run.start job m traced).Ends (.error e) m' →
      e.blamesProgram = true ∨ Excused (Run.start job m traced) e) ∧
    ∀ n, InBounds job size ((Run.start job m traced).carryOn n) := by
  have hsize := sizeError?_of_new hnew
  have hstart := guarded_start hnew job traced
  exact ⟨fun e m' hends => hstart.ends hsize rfl hends,
    fun n => (hstart.carryOn hsize n).inBounds⟩

/-- A load from behind the only cell there is. -/
theorem run_inBounds_outside :
    ∃ m, Machine.new 1 = .ok m ∧
      (∀ e m', (Run.start { assembly := "lbu $s0, 1($sp)" } m).Ends (.error e) m' →
        e.blamesProgram = true ∨
          Excused (Run.start { assembly := "lbu $s0, 1($sp)" } m) e) ∧
      ∀ n, InBounds { assembly := "lbu $s0, 1($sp)" } 1
        ((Run.start { assembly := "lbu $s0, 1($sp)" } m).carryOn n) := by
  have hnew : Machine.new 1 = .ok { memorySize := 1, state := State.fresh 1 } := rfl
  exact ⟨_, hnew, run_inBounds hnew _ false⟩

end TapeMips.Machine
