import TapeMips.Machine.Run

/-!
# Moving through a program

A run is followed instruction by instruction. `Moves n` says that `n`
instructions, none of which ends the program or fails, lead from one place and
machine to another; the snapshots on the way are left out. A run ends with a
result or goes on without end. Beginning a run and noticing its end take an
advance of their own each, and this file is where that is accounted for, so that
nothing later has to.

A run that has come to a result keeps it (`outcome_mono`). Hence no run comes to
two results, and a run that moves on by arbitrarily many instructions is endless.
-/

namespace TapeMips.Machine

/-- `n` instructions lead from one place in a program, on one machine, to another. -/
inductive Moves : Nat → Cursor → Machine → Cursor → Machine → Prop where
  | refl (c : Cursor) (m : Machine) : Moves 0 c m c m
  | head {n : Nat} {c₁ c₂ c₃ : Cursor} {m₁ m₂ m₃ : Machine} {s : Snapshot}
      (first : c₁.advance m₁ = ⟨.snapshot s, .running c₂, m₂⟩)
      (rest : Moves n c₂ m₂ c₃ m₃) : Moves (n + 1) c₁ m₁ c₃ m₃

theorem Moves.trans {n k : Nat} {c₁ c₂ c₃ : Cursor} {m₁ m₂ m₃ : Machine}
    (h₁ : Moves n c₁ m₁ c₂ m₂) (h₂ : Moves k c₂ m₂ c₃ m₃) :
    Moves (n + k) c₁ m₁ c₃ m₃ := by
  induction h₁ with
  | refl c m =>
      rw [Nat.zero_add]
      exact h₂
  | head first rest ih =>
      rw [Nat.add_right_comm]
      exact .head first (ih h₂)

/-- The machine after a change. -/
def change (m : Machine) (ch : Change) : Machine :=
  { m with state := m.state.apply ch }

/-- The place behind an instruction that leads to `pc` and leaves some input. -/
def Cursor.goto (c : Cursor) (pc : Nat) (input : List Int) : Cursor :=
  { c with input, pc, steps := c.steps + 1 }

theorem advance_of_effect {c : Cursor} {m : Machine} {i : Asm.Instruction}
    {ch : Change} {input : List Int} {pc : Nat}
    (hcode : c.program.code[c.pc]? = some i) (hlimit : c.limit = none)
    (heffect : effect m.memorySize c.program c.pc i c.input m.state =
      .ok ⟨ch, input, .goto pc⟩) :
    ∃ s, c.advance m = ⟨.snapshot s, .running (c.goto pc input), m.change ch⟩ := by
  have hspent : c.isSpent = false := by simp [Cursor.isSpent, hlimit]
  refine ⟨snapshot (m.change ch).state (c.steps + 1) pc (some i.text), ?_⟩
  simp [Cursor.advance, hcode, hspent, heffect, Cursor.goto, change]

theorem Moves.of_effect {c : Cursor} {m : Machine} {i : Asm.Instruction} {ch : Change}
    {input : List Int} {pc : Nat} (hcode : c.program.code[c.pc]? = some i)
    (hlimit : c.limit = none)
    (heffect : effect m.memorySize c.program c.pc i c.input m.state =
      .ok ⟨ch, input, .goto pc⟩) :
    Moves 1 c m (c.goto pc input) (m.change ch) := by
  obtain ⟨s, hs⟩ := advance_of_effect hcode hlimit heffect
  exact .head hs (.refl _ _)

theorem advance_of_fault {c : Cursor} {m : Machine} {i : Asm.Instruction} {f : Fault}
    (hcode : c.program.code[c.pc]? = some i) (hlimit : c.limit = none)
    (heffect : effect m.memorySize c.program c.pc i c.input m.state = .error f) :
    c.advance m = ⟨.failed (.fault f), .over, m⟩ := by
  have hspent : c.isSpent = false := by simp [Cursor.isSpent, hlimit]
  simp [Cursor.advance, hcode, hspent, heffect]

theorem advance_of_exit {c : Cursor} {m : Machine} {i : Asm.Instruction}
    {input : List Int} (hcode : c.program.code[c.pc]? = some i)
    (hlimit : c.limit = none)
    (heffect : effect m.memorySize c.program c.pc i c.input m.state =
      .ok ⟨.none, input, .exit⟩) :
    ∃ s, c.advance m = ⟨.snapshot s, .over, m⟩ := by
  have hspent : c.isSpent = false := by simp [Cursor.isSpent, hlimit]
  refine ⟨snapshot m.state (c.steps + 1) c.pc (some i.text), ?_⟩
  simp [Cursor.advance, hcode, hspent, heffect, State.apply]

theorem nonneg_of_sizeError? {size : Int} (h : sizeError? size = none) : 0 ≤ size := by
  simp only [sizeError?] at h
  split at h
  · cases h
  · split at h
    · cases h
    · omega

/-- A new machine has the size that was asked for, and resetting it changes nothing. -/
theorem new_eq_ok {size : Int} {m : Machine} (h : Machine.new size = .ok m) :
    0 ≤ size ∧ m = { memorySize := size, state := State.fresh size.toNat } ∧
      m.reset = .ok m := by
  rw [Machine.new, reset] at h
  cases herror : sizeError? size with
  | some e =>
      rw [herror] at h
      cases h
  | none =>
      rw [herror] at h
      cases h
      refine ⟨?_, rfl, ?_⟩
      · exact nonneg_of_sizeError? herror
      · rw [reset, herror]

namespace Run

/-- A run in the middle of a program that prints no trace. -/
def midway (c : Cursor) (m : Machine) : Run :=
  { iteration := .running c, machine := m }

theorem step_settled {r : Run} {result : Except Failure String}
    (h : r.outcome = some result) : r.step = r := by
  simp only [step, h]

theorem step_over {r : Run} (h : r.outcome = none) (hit : r.iteration = .over) :
    r.step = { r with outcome := some (.ok r.machine.state.output) } := by
  simp only [step, h, hit]

theorem step_waiting_error {r : Run} {job : Job} {m : Machine} {e : Failure}
    (h : r.outcome = none) (hit : r.iteration = .waiting job)
    (hbegin : job.begin r.machine = (m, .error e)) :
    r.step =
      { r with iteration := .over, machine := m, outcome := some (.error e) } := by
  simp only [step, h, hit, hbegin]

theorem step_waiting_ok {r : Run} {job : Job} {m : Machine} {c : Cursor}
    (h : r.outcome = none) (hit : r.iteration = .waiting job)
    (hbegin : job.begin r.machine = (m, .ok c)) :
    r.step = { r with iteration := .running c, machine := m } := by
  simp only [step, h, hit, hbegin]

theorem step_running {r : Run} {c : Cursor} (h : r.outcome = none)
    (hit : r.iteration = .running c) :
    r.step.iteration = (c.advance r.machine).iteration ∧
      r.step.machine = (c.advance r.machine).machine ∧
      ∀ e, r.step.outcome = some e ↔ ∃ f, (c.advance r.machine).turn = .failed f ∧
        e = .error f := by
  simp only [step, h, hit]
  refine ⟨trivial, trivial, fun e => ?_⟩
  cases (c.advance r.machine).turn with
  | snapshot s => simp
  | exhausted => simp
  | failed f => simp [eq_comm]

theorem carryOn_of_isSome {r : Run} (h : r.outcome.isSome = true) (n : Nat) :
    r.carryOn n = r := by
  cases n with
  | zero => rfl
  | succ n => rw [carryOn, if_pos h]

theorem carryOn_succ (r : Run) (n : Nat) : r.carryOn (n + 1) = r.step.carryOn n := by
  rw [carryOn]
  split
  · next h =>
      obtain ⟨outcome, houtcome⟩ := Option.isSome_iff_exists.mp h
      rw [step_settled houtcome, carryOn_of_isSome h]
  · rfl

theorem carryOn_add (r : Run) (n k : Nat) :
    r.carryOn (n + k) = (r.carryOn n).carryOn k := by
  induction n generalizing r with
  | zero => rw [Nat.zero_add, carryOn]
  | succ n ih => rw [Nat.add_right_comm, carryOn_succ, carryOn_succ, ih]

/-- What a run has come to it has come to for good. -/
theorem outcome_mono {r : Run} {n k : Nat} {result : Except Failure String}
    (hle : n ≤ k) (h : (r.carryOn n).outcome = some result) :
    r.carryOn k = r.carryOn n := by
  obtain ⟨d, rfl⟩ := Nat.exists_eq_add_of_le hle
  rw [carryOn_add]
  exact carryOn_of_isSome (by rw [h]; rfl) d

theorem outcome_unique {r : Run} {n k : Nat} {x y : Except Failure String}
    (hn : (r.carryOn n).outcome = some x) (hk : (r.carryOn k).outcome = some y) :
    r.carryOn n = r.carryOn k := by
  rcases Nat.le_total n k with hle | hle
  · exact (outcome_mono hle hn).symm
  · exact outcome_mono hle hk

/-- The run comes to this result, an output or a failure, and leaves this machine. -/
def Ends (r : Run) (result : Except Failure String) (m : Machine) : Prop :=
  ∃ n, (r.carryOn n).outcome = some result ∧ (r.carryOn n).machine = m

/-- The run comes to no end. -/
def Endless (r : Run) : Prop := ∀ n, (r.carryOn n).outcome = none

theorem Ends.unique {r : Run} {x y : Except Failure String} {m m' : Machine}
    (h : r.Ends x m) (h' : r.Ends y m') : x = y ∧ m = m' := by
  obtain ⟨n, hn, rfl⟩ := h
  obtain ⟨k, hk, rfl⟩ := h'
  have heq := outcome_unique hn hk
  rw [heq, hk, Option.some.injEq] at hn
  exact ⟨hn.symm, by rw [heq]⟩

theorem Endless.not_ends {r : Run} {x : Except Failure String} {m : Machine}
    (h : r.Endless) : ¬ r.Ends x m := by
  rintro ⟨n, hn, -⟩
  rw [h n] at hn
  cases hn

/-- A run that has come to a result took a last step to it. -/
theorem exists_last_step {r : Run} {n : Nat} {result : Except Failure String}
    (hstart : r.outcome = none) (h : (r.carryOn n).outcome = some result) :
    ∃ k, (r.carryOn k).outcome = none ∧ (r.carryOn k).step.outcome = some result := by
  induction n generalizing r with
  | zero =>
      rw [carryOn, hstart] at h
      cases h
  | succ n ih =>
      rw [carryOn_succ] at h
      cases hstep : r.step.outcome with
      | none =>
          obtain ⟨k, hk, hlast⟩ := ih hstep h
          exact ⟨k + 1, by rwa [carryOn_succ], by rwa [carryOn_succ]⟩
      | some x =>
          rw [carryOn_of_isSome (by rw [hstep]; rfl)] at h
          exact ⟨0, hstart, h⟩

theorem step_midway {c c' : Cursor} {m m' : Machine} {s : Snapshot}
    (h : c.advance m = ⟨.snapshot s, .running c', m'⟩) :
    (midway c m).step = midway c' m' := by
  simp [step, midway, h, note]

theorem carryOn_midway {n : Nat} {c c' : Cursor} {m m' : Machine}
    (h : Moves n c m c' m') : (midway c m).carryOn n = midway c' m' := by
  induction h with
  | refl c m => rfl
  | head first rest ih => rw [carryOn_succ, step_midway first, ih]

theorem ends_of_exit {n : Nat} {c c' : Cursor} {m m' : Machine} {s : Snapshot}
    (h : Moves n c m c' m') (hend : c'.advance m' = ⟨.snapshot s, .over, m'⟩) :
    (midway c m).Ends (.ok m'.state.output) m' := by
  have hlast : (midway c' m').carryOn 2 =
      { iteration := .over, machine := m',
        outcome := some (.ok m'.state.output) } := by
    simp [carryOn, step, midway, hend, note]
  refine ⟨n + 2, ?_⟩
  rw [carryOn_add, carryOn_midway h, hlast]
  exact ⟨rfl, rfl⟩

theorem ends_of_failure {n : Nat} {c c' : Cursor} {m m' : Machine} {e : Failure}
    (h : Moves n c m c' m') (hfail : c'.advance m' = ⟨.failed e, .over, m'⟩) :
    (midway c m).Ends (.error e) m' := by
  have hlast : (midway c' m').carryOn 1 =
      { iteration := .over, machine := m', outcome := some (.error e) } := by
    simp [carryOn, step, midway, hfail, note]
  refine ⟨n + 1, ?_⟩
  rw [carryOn_add, carryOn_midway h, hlast]
  exact ⟨rfl, rfl⟩

theorem endless_of_moves {c : Cursor} {m : Machine}
    (h : ∀ k, ∃ n c' m', k ≤ n ∧ Moves n c m c' m') : (midway c m).Endless := by
  intro k
  obtain ⟨n, c', m', hle, hmoves⟩ := h k
  cases houtcome : ((midway c m).carryOn k).outcome with
  | none => rfl
  | some result =>
      have hstay := outcome_mono hle houtcome
      rw [carryOn_midway hmoves] at hstay
      rw [← hstay] at houtcome
      cases houtcome

theorem step_start {job : Job} {m m' : Machine} {p : Asm.Program}
    (hreset : m.reset = .ok m') (hassemble : Asm.assemble job.assembly = .ok p) :
    (start job m).step =
      midway { program := p, input := job.input, limit := job.limit } m' := by
  simp [start, step, Job.begin, hreset, hassemble, midway]

theorem Ends.of_step {r : Run} {result : Except Failure String} {m : Machine}
    (h : r.step.Ends result m) : r.Ends result m := by
  obtain ⟨n, hn⟩ := h
  exact ⟨n + 1, by rwa [carryOn_succ]⟩

theorem Endless.of_step {r : Run} (h : r.step.Endless) : r.Endless := by
  intro n
  cases houtcome : (r.carryOn n).outcome with
  | none => rfl
  | some result =>
      have hstay := outcome_mono (Nat.le_succ n) houtcome
      rw [carryOn_succ] at hstay
      rw [← hstay, h n] at houtcome
      cases houtcome

end Run

end TapeMips.Machine
