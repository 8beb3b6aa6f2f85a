import TapeMips.Proofs.Effects
import TapeMips.Proofs.Moves

/-!
# What an advance can do

An advance comes to one of five things (`Advances`): the program has been left at
its end, the limit is spent, the instruction meets a fault, it ends the program,
or it leads on. Whatever is true of all five is true of every advance.

An iteration that waits for its first advance resets the machine, and after that
it never waits again. So what a property of machines needs to hold along an
iteration or a run is a machine to begin with and that no advance loses it
(`keeps_advanceBy`, `keeps_carryOn`).
-/

namespace TapeMips.Machine

open Asm

/-- What an advance comes to. -/
inductive Advances (c : Cursor) (m : Machine) : Advance → Prop where
  | finished (code : c.program.code[c.pc]? = none) :
      Advances c m ⟨.snapshot (snapshot m.state c.steps c.pc none), .over, m⟩
  | spent {i : Instruction} (code : c.program.code[c.pc]? = some i)
      (spent : c.isSpent = true) : Advances c m ⟨.failed .stepLimit, .over, m⟩
  | fault {i : Instruction} {f : Fault} (code : c.program.code[c.pc]? = some i)
      (left : c.isSpent = false)
      (effect_eq : effect m.memorySize c.program c.pc i c.input m.state = .error f) :
      Advances c m ⟨.failed (.fault f), .over, m⟩
  | exit {i : Instruction} {ch : Change} {input : List Int}
      (code : c.program.code[c.pc]? = some i) (left : c.isSpent = false)

      (effect_eq : effect m.memorySize c.program c.pc i c.input m.state =
        .ok ⟨ch, input, .exit⟩) :
      Advances c m
        ⟨.snapshot (snapshot (m.change ch).state (c.steps + 1) c.pc (some i.text)),
          .over, m.change ch⟩
  | goto {i : Instruction} {ch : Change} {input : List Int} {pc : Nat}
      (code : c.program.code[c.pc]? = some i) (left : c.isSpent = false)
      (effect_eq : effect m.memorySize c.program c.pc i c.input m.state =
        .ok ⟨ch, input, .goto pc⟩) :
      Advances c m
        ⟨.snapshot (snapshot (m.change ch).state (c.steps + 1) pc (some i.text)),
          .running (c.goto pc input), m.change ch⟩

theorem advances (c : Cursor) (m : Machine) : Advances c m (c.advance m) := by
  rw [Cursor.advance]
  cases hcode : c.program.code[c.pc]? with
  | none => exact .finished hcode
  | some i =>
      cases hspent : c.isSpent with
      | true => exact .spent hcode hspent
      | false =>
          dsimp only
          rw [if_neg Bool.false_ne_true]
          cases heffect : effect m.memorySize c.program c.pc i c.input m.state with
          | error f => exact .fault hcode hspent heffect
          | ok e =>
              obtain ⟨ch, input, next⟩ := e
              cases next with
              | exit => exact .exit hcode hspent heffect
              | goto pc => exact .goto hcode hspent heffect

/-- The machine after a reset that puts its size in force. -/
def renewed (m : Machine) : Machine :=
  { m with state := State.fresh m.memorySize.toNat }

theorem begin_of_refused {m : Machine} {e : SizeError}
    (h : sizeError? m.memorySize = some e) (job : Job) :
    job.begin m = (m, .error (.size e)) := by
  rw [Job.begin, reset, h]

theorem begin_of_duplicate {m : Machine} (h : sizeError? m.memorySize = none)
    {job : Job} {e : DuplicateLabel} (hassemble : assemble job.assembly = .error e) :
    job.begin m = (m.renewed, .error (.duplicateLabel e)) := by
  rw [Job.begin, reset, h]
  dsimp only
  rw [hassemble]
  rfl

/-- The first place in the program of a job. -/
def Job.cursor (job : Job) (p : Program) : Cursor :=
  { program := p, input := job.input, limit := job.limit }

theorem begin_of_assembled {m : Machine} (h : sizeError? m.memorySize = none)
    {job : Job} {p : Program} (hassemble : assemble job.assembly = .ok p) :
    job.begin m = (m.renewed, .ok (job.cursor p)) := by
  rw [Job.begin, reset, h]
  dsimp only
  rw [hassemble]
  rfl

theorem begin_of_granted {m : Machine} (h : sizeError? m.memorySize = none)
    (job : Job) : (job.begin m).1 = m.renewed := by
  cases hassemble : assemble job.assembly with
  | error e => rw [begin_of_duplicate h hassemble]
  | ok p => rw [begin_of_assembled h hassemble]

/-- A new machine has nothing to reset. -/
theorem begin_of_new {size : Int} {m : Machine} (h : Machine.new size = .ok m)
    {job : Job} {p : Program} (hassemble : assemble job.assembly = .ok p) :
    job.begin m = (m, .ok (job.cursor p)) := by
  obtain ⟨-, -, hreset⟩ := new_eq_ok h
  rw [Job.begin, hreset]
  dsimp only
  rw [hassemble]
  rfl

theorem begin_of_new_duplicate {size : Int} {m : Machine}
    (h : Machine.new size = .ok m) {job : Job} {e : DuplicateLabel}
    (hassemble : assemble job.assembly = .error e) :
    job.begin m = (m, .error (.duplicateLabel e)) := by
  obtain ⟨-, -, hreset⟩ := new_eq_ok h
  rw [Job.begin, hreset]
  dsimp only
  rw [hassemble]

/-- From its first advance on an iteration that has begun is one that runs. -/
theorem advanceBy_of_begun {m m' : Machine} {job : Job} {c : Cursor}
    (h : job.begin m = (m', .ok c)) (n : Nat) :
    (Iteration.waiting job).advanceBy (n + 1) m =
      (Iteration.running c).advanceBy (n + 1) m' := by
  simp only [Iteration.advanceBy, Iteration.advance, h]

theorem advanceBy_of_refused {m : Machine} {e : Failure} {job : Job}
    (h : job.begin m = (m, .error e)) (n : Nat) :
    (Iteration.waiting job).advanceBy (n + 1) m = ⟨[], .failed e, .over, m⟩ := by
  simp only [Iteration.advanceBy, Iteration.advance, h]

theorem advanceBy_over (n : Nat) (m : Machine) :
    Iteration.over.advanceBy (n + 1) m = ⟨[], .exhausted, .over, m⟩ := rfl

/-- The iteration has been advanced before, or there is nothing to advance. -/
def Iteration.HasBegun : Iteration → Prop
  | .waiting _ => False
  | .running _ | .over => True

theorem hasBegun_advance (c : Cursor) (m : Machine) :
    (c.advance m).iteration.HasBegun := by
  have h := advances c m
  generalize c.advance m = a at h
  cases h <;> trivial

theorem advance_waiting_cases (job : Job) (m : Machine) :
    (∃ e, (Iteration.waiting job).advance m = ⟨.failed e, .over, (job.begin m).1⟩) ∨
      ∃ c : Cursor, (Iteration.waiting job).advance m = c.advance (job.begin m).1 := by
  rw [Iteration.advance]
  rcases job.begin m with ⟨m', e | c⟩
  · exact Or.inl ⟨e, rfl⟩
  · exact Or.inr ⟨c, rfl⟩

section Keeps

variable {P : Machine → Prop}

theorem keeps_advanceBy
    (hP : ∀ (c : Cursor) (m : Machine), P m → P (c.advance m).machine) {it : Iteration}
    {m : Machine} (hit : it.HasBegun) (h : P m) (n : Nat) :
    P (it.advanceBy n m).machine := by
  induction n generalizing it m with
  | zero => exact h
  | succ n ih =>
      cases it with
      | waiting job => exact absurd hit id
      | «over» => exact h
      | running c =>
          have hkept := hP c m h
          have hrest := ih (hasBegun_advance c m) hkept
          simp only [Iteration.advanceBy, Iteration.advance]
          split
          · exact hkept
          · exact hkept
          · exact hrest

theorem keeps_carryOn
    (hP : ∀ (c : Cursor) (m : Machine), P m → P (c.advance m).machine) {r : Run}
    (hr : r.iteration.HasBegun) (h : P r.machine) (n : Nat) :
    P (r.carryOn n).machine := by
  induction n generalizing r with
  | zero => exact h
  | succ n ih =>
      rw [Run.carryOn_succ]
      cases houtcome : r.outcome with
      | some result =>
          rw [Run.step_settled houtcome]
          exact ih hr h
      | none =>
          cases hiteration : r.iteration with
          | waiting job =>
              rw [hiteration] at hr
              exact absurd hr id
          | «over» =>
              rw [Run.step_over houtcome hiteration]
              exact ih hr h
          | running c =>
              obtain ⟨hiteration', hmachine, -⟩ := Run.step_running houtcome hiteration
              refine ih ?_ ?_
              · rw [hiteration']
                exact hasBegun_advance c r.machine
              · rw [hmachine]
                exact hP c r.machine h

theorem keeps_waiting
    (hP : ∀ (c : Cursor) (m : Machine), P m → P (c.advance m).machine) {job : Job}
    {m : Machine} (h : P (job.begin m).1) (n : Nat) :
    P ((Iteration.waiting job).advanceBy (n + 1) m).machine := by
  rw [Iteration.advanceBy]
  rcases advance_waiting_cases job m with ⟨e, hfirst⟩ | ⟨c, hfirst⟩
  · rw [hfirst]
    exact h
  · have hkept := hP c _ h
    have hrest := keeps_advanceBy hP (hasBegun_advance c (job.begin m).1) hkept n
    simp only [hfirst]
    split
    · exact hkept
    · exact hkept
    · exact hrest

theorem keeps_start (hP : ∀ (c : Cursor) (m : Machine), P m → P (c.advance m).machine)
    {job : Job} {m : Machine} (h : P (job.begin m).1) (traced : Bool) (n : Nat) :
    P ((Run.start job m traced).carryOn (n + 1)).machine := by
  rw [Run.carryOn_succ]
  rcases hbegin : job.begin m with ⟨m', e | c⟩
  · rw [hbegin] at h
    have hstep : (Run.start job m traced).step = _ :=
      Run.step_waiting_error rfl rfl hbegin
    rw [hstep, Run.carryOn_of_isSome rfl]
    exact h
  · rw [hbegin] at h
    have hstep : (Run.start job m traced).step = _ :=
      Run.step_waiting_ok rfl rfl hbegin
    have hbegun : (Run.start job m traced).step.iteration.HasBegun := by
      rw [hstep]; trivial
    exact keeps_carryOn hP hbegun (by rw [hstep]; exact h) n

end Keeps

end TapeMips.Machine
