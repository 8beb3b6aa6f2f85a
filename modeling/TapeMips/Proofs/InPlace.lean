import TapeMips.Machine.InPlace
import TapeMips.Proofs.Iterations

/-!
# Faults leave nothing half done

Carried out in place, an instruction could leave a change behind when a later check
fails. None does: in every mnemonic all looking comes first, and the one change is
made when nothing is left that could fail. So an instruction in place is the effect
that was worked out for it, applied to the state it began with, or a fault that
leaves this state alone (`InPlace.execute_eq`). The lemmas before it say what each
action does to what comes behind it; an action that only looks hands the workplace
on as it is.

An iteration fails in the middle of an instruction, in front of one that its limit
forbids, or before there is one. In none of these cases has anything happened since
the last snapshot, or since the reset if there is none (`failure_changes_nothing`).
-/

namespace TapeMips.Machine

open Asm

/-- Goes on with what could be worked out; a fault leaves the workplace as it is. -/
def Workplace.andThen {α β : Type} (w : Workplace) (x : Except Fault α)
    (k : α → EStateM.Result Fault Workplace β) : EStateM.Result Fault Workplace β :=
  match x with
  | .ok a => k a
  | .error f => .error f w

/-- Makes the change that could be worked out. -/
def Workplace.enact (w : Workplace) (x : Except Fault Change) :
    EStateM.Result Fault Workplace Unit :=
  w.andThen x fun ch => .ok () { w with state := w.state.apply ch }

/-- Makes the change of the effect that could be worked out, and goes where it
leads. -/
def Workplace.settle (w : Workplace) (x : Except Fault Effect) :
    EStateM.Result Fault Workplace Continuation :=
  w.andThen x fun e => .ok e.next ⟨w.state.apply e.change, e.input⟩

theorem Workplace.andThen_bind {α β γ : Type} (w : Workplace) (x : Except Fault α)
    (f : α → Except Fault β) (k : β → EStateM.Result Fault Workplace γ) :
    w.andThen (x >>= f) k = w.andThen x fun a => w.andThen (f a) k := by
  cases x with
  | error e => rfl
  | ok a => rfl

namespace InPlace

section Actions

variable {β : Type} (i : Instruction) (name : String) (w : Workplace)

theorem check_bind {α : Type} (x : Except Fault α) (k : α → InPlace β) :
    (check x >>= k) w = w.andThen x fun a => k a w := by
  cases x with
  | error f => rfl
  | ok a => rfl

theorem readRegister_bind (k : Int → InPlace β) :
    (readRegister i name >>= k) w =
      w.andThen (register i name) fun r => k (w.state.registers.read r) w := by
  rw [readRegister]
  cases register i name with
  | error f => rfl
  | ok r => rfl

theorem writeRegister_eq (value : Int) :
    writeRegister i name value w =
      w.andThen (register i name) fun r =>
        .ok () { w with state := w.state.apply (.register r value) } := by
  rw [writeRegister]
  cases register i name with
  | error f => rfl
  | ok r => rfl

theorem locate_bind (size : Int) (text : String) (k : Nat → InPlace β) :
    (locate size i text >>= k) w = w.andThen (address size w.state i text) fun a =>
      k a w := by
  show (check (address size w.state i text) >>= k) w = _
  exact check_bind w _ k

theorem readCell_bind (a : Nat) (k : UInt8 → InPlace β) :
    (readCell a >>= k) w =
      match w.state.memory[a]? with
      | some cell => k cell w
      | none => .error (.beyondMemory a) w := by
  show ((match w.state.memory[a]? with
    | some cell => pure cell
    | none => throw (.beyondMemory a) : InPlace UInt8) >>= k) w = _
  cases w.state.memory[a]? with
  | none => rfl
  | some cell => rfl

theorem writeCell_eq (a : Nat) (value : UInt8) :
    writeCell a value w =
      if a < w.state.memory.size then
        .ok () { w with state := w.state.apply (.cell a value) }
      else .error (.beyondMemory a) w := by
  show (if a < w.state.memory.size then _
    else throw (.beyondMemory a) : InPlace Unit) w = _
  split
  · rfl
  · rfl

theorem readChar_eq :
    readChar w =
      .ok () ⟨w.state.apply (.register .v0 (w.input.headD 0)), w.input.tail⟩ := by
  obtain ⟨state, input⟩ := w
  cases input with
  | nil => rfl
  | cons x rest => rfl

end Actions

section Mnemonics

variable (size : Int) (p : Program) (pc : Nat) (i : Instruction) (w : Workplace)

theorem addImmediate_eq (sign : Int) :
    addImmediate sign i w = w.enact (Machine.addImmediate sign w.state i) := by
  rw [addImmediate, Machine.addImmediate]
  rcases i.operands with _ | ⟨target, _ | ⟨source, _ | ⟨constant, _ | ⟨extra, more⟩⟩⟩⟩
  case cons.cons.cons.nil =>
    simp only [check_bind, readRegister_bind, writeRegister_eq, Workplace.enact,
      Workplace.andThen_bind]
    rfl
  all_goals rfl

theorem loadImmediate_eq : loadImmediate i w = w.enact (Machine.loadImmediate i) := by
  rw [loadImmediate, Machine.loadImmediate]
  rcases i.operands with _ | ⟨target, _ | ⟨constant, _ | ⟨extra, more⟩⟩⟩
  case cons.cons.nil =>
    simp only [check_bind, writeRegister_eq, Workplace.enact, Workplace.andThen_bind]
    rfl
  all_goals rfl

theorem loadByte_eq :
    loadByte size i w = w.enact (Machine.loadByte size w.state i) := by
  rw [loadByte, Machine.loadByte]
  rcases i.operands with _ | ⟨target, _ | ⟨place, _ | ⟨extra, more⟩⟩⟩
  case cons.cons.nil =>
    simp only [locate_bind, readCell_bind, writeRegister_eq, Workplace.enact,
      Workplace.andThen_bind]
    congr 1
    funext a
    cases w.state.memory[a]? with
    | none => rfl
    | some cell =>
        rw [Workplace.andThen_bind]
        rfl
  all_goals rfl

theorem storeByte_eq :
    storeByte size i w = w.enact (Machine.storeByte size w.state i) := by
  rw [storeByte, Machine.storeByte]
  rcases i.operands with _ | ⟨source, _ | ⟨place, _ | ⟨extra, more⟩⟩⟩
  case cons.cons.nil =>
    simp only [locate_bind, readRegister_bind, writeCell_eq, Workplace.enact,
      Workplace.andThen_bind]
    congr 1
    funext a
    congr 1
    funext b
    split
    · rfl
    · rfl
  all_goals rfl

theorem branch_eq (whenEqual : Bool) :
    branch whenEqual p pc i w =
      w.andThen (Machine.branch whenEqual p pc w.state i) fun index =>
        .ok index w := by
  rw [branch, Machine.branch]
  rcases i.operands with _ | ⟨left, _ | ⟨right, _ | ⟨label, _ | ⟨extra, more⟩⟩⟩⟩
  case cons.cons.cons.nil =>
    simp only [readRegister_bind, Workplace.andThen_bind]
    congr 1
    funext l
    congr 1
    funext r
    split
    · cases p.target? label with
      | none => rfl
      | some index => rfl
    · rfl
  all_goals rfl

theorem callService_eq :
    callService pc i w = w.settle (Machine.callService pc w.state i w.input) := by
  show (if w.state.registers.v0 = 10 then _ else _ : InPlace Continuation) w = _
  rw [Machine.callService]
  split
  · rfl
  · split
    · rfl
    · split
      · show EStateM.bind readChar (fun _ => pure (Continuation.goto (pc + 1))) w = _
        rw [EStateM.bind, readChar_eq]
        rfl
      · rfl

theorem straight_eq {work : InPlace Unit} {change : Except Fault Change}
    (h : work w = w.enact change) :
    (work >>= fun _ => pure (.goto (pc + 1))) w =
      w.settle (change.map fun ch => ⟨ch, w.input, .goto (pc + 1)⟩) := by
  show EStateM.bind work _ w = _
  rw [EStateM.bind, h]
  cases change with
  | error f => rfl
  | ok ch => rfl

theorem jump_eq {work : InPlace Nat} {target : Except Fault Nat}
    (h : work w = w.andThen target fun index => .ok index w) :
    (work >>= fun index => pure (.goto index)) w =
      w.settle (target.map fun index => ⟨.none, w.input, .goto index⟩) := by
  show EStateM.bind work _ w = _
  rw [EStateM.bind, h]
  cases target with
  | error f => rfl
  | ok index => rfl

/-- Carried out in place, an instruction does what it was worked out to do, or
nothing. -/
theorem execute_eq :
    execute size p pc i w = w.settle (effect size p pc i w.input w.state) := by
  unfold effect
  dsimp only
  split
  · next h =>
      rw [execute, h]
      exact straight_eq pc w (addImmediate_eq i w 1)
  · next h =>
      rw [execute, h]
      exact straight_eq pc w (addImmediate_eq i w (-1))
  · next h =>
      rw [execute, h]
      exact straight_eq pc w (loadImmediate_eq i w)
  · next h =>
      rw [execute, h]
      exact straight_eq pc w (loadByte_eq size i w)
  · next h =>
      rw [execute, h]
      exact straight_eq pc w (storeByte_eq size i w)
  · next h =>
      rw [execute, h]
      exact jump_eq w (branch_eq p pc i w true)
  · next h =>
      rw [execute, h]
      exact jump_eq w (branch_eq p pc i w false)
  · next h =>
      rw [execute, h]
      exact callService_eq pc i w
  · simp only [execute]
    rfl

end Mnemonics

end InPlace

/-! ## Iterations

With every mnemonic shown to do in place what its effect says, in the order of
its writes, iterations and runs are the same either way. A fault in the middle
of an instruction therefore leaves what the iteration had when it last paused.
-/

/-- An iteration may as well carry out its instructions in place. -/
theorem advanceInPlace_eq (c : Cursor) (m : Machine) :
    c.advanceInPlace m = c.advance m := by
  rw [Cursor.advanceInPlace, Cursor.advance]
  cases c.program.code[c.pc]? with
  | none => rfl
  | some i =>
      dsimp only
      rw [InPlace.execute_eq]
      cases effect m.memorySize c.program c.pc i c.input m.state with
      | error f => rfl
      | ok e =>
          obtain ⟨ch, input, next⟩ := e
          cases next with
          | exit => rfl
          | goto pc => rfl

theorem machine_of_failed {c : Cursor} {m m' : Machine} {it : Iteration} {e : Failure}
    (h : c.advance m = ⟨.failed e, it, m'⟩) : m' = m := by
  have hadvances := advances c m
  rw [h] at hadvances
  cases hadvances with
  | spent => rfl
  | fault => rfl

/-- An iteration that has begun and fails leaves the machine as it was when it
last paused. -/
theorem paused_of_failed {it : Iteration} {m m' : Machine} {snapshots : List Snapshot}
    {e : Failure} (h : it.Yields m snapshots (.failed e) m') (hbegun : it.HasBegun) :
    ∃ it', it.advanceBy snapshots.length m = ⟨snapshots, .paused, it', m'⟩ := by
  generalize hstop : Stop.failed e = stop at h
  induction h with
  | exhausted => cases hstop
  | @failed it it' m m' e' last =>
      cases it with
      | waiting job => exact absurd hbegun id
      | «over» => cases last
      | running c =>
          rw [machine_of_failed last]
          exact ⟨_, rfl⟩
  | @snapshot it it' m m' m'' s snapshots stop first rest ih =>
      cases it with
      | waiting job => exact absurd hbegun id
      | «over» => cases first
      | running c =>
          have hbegun' := hasBegun_advance c m
          have hadvance : c.advance m = ⟨.snapshot s, it', m'⟩ := first
          rw [hadvance] at hbegun'
          obtain ⟨it₁, hpaused⟩ := ih hbegun' hstop
          refine ⟨it₁, ?_⟩
          rw [List.length_cons, advanceBy_snapshot first, hpaused]

/-- An iteration of a job that was to begin on `m` has failed behind these
snapshots and left `m'`. -/
structure FailsCleanly (job : Job) (m : Machine) (snapshots : List Snapshot)
    (m' : Machine) : Prop where
  /-- If the machine could not be reset, nothing has happened to it. -/
  refused : ∀ e, sizeError? m.memorySize = some e → snapshots = [] ∧ m' = m
  /-- If it could, and that was all, it has been reset. -/
  fresh : sizeError? m.memorySize = none → snapshots = [] →
    m' = { m with state := State.fresh m.memorySize.toNat }
  /-- Otherwise it is as after the last snapshot, which shows it. -/
  last : ∀ s, snapshots.getLast? = some s → s.TakenOf m'.state ∧
    ∃ it, (Iteration.waiting job).advanceBy snapshots.length m =
      ⟨snapshots, .paused, it, m'⟩

theorem failsCleanly_of_refused {m : Machine} {e : SizeError}
    (h : sizeError? m.memorySize = some e) (job : Job) : FailsCleanly job m [] m where
  refused := fun _ _ => ⟨rfl, rfl⟩
  fresh := fun hnone => by rw [h] at hnone; cases hnone
  last := nofun

theorem failsCleanly_of_duplicate {m : Machine} (h : sizeError? m.memorySize = none)
    (job : Job) : FailsCleanly job m [] m.renewed where
  refused := fun _ hsome => by rw [h] at hsome; cases hsome
  fresh := fun _ _ => rfl
  last := nofun

theorem failsCleanly_of_begun {m m' : Machine} (h : sizeError? m.memorySize = none)
    {job : Job} {p : Program} (hassemble : assemble job.assembly = .ok p)
    {snapshots : List Snapshot} {e : Failure}
    (hyields : (Iteration.running (job.cursor p)).Yields m.renewed snapshots
      (.failed e) m') :
    FailsCleanly job m snapshots m' := by
  have hbegun : (Iteration.running (job.cursor p)).HasBegun := trivial
  obtain ⟨it, hpaused⟩ := paused_of_failed hyields hbegun
  refine ⟨fun _ hsome => ?_, fun _ hnone => ?_, fun s hs => ⟨?_, it, ?_⟩⟩
  · rw [h] at hsome
    cases hsome
  · subst hnone
    cases hpaused
    rfl
  · have hfirst : (snapshot m.renewed.state 0 0 none).TakenOf m.renewed.state :=
      snapshot_takenOf _ 0 0 none
    have hlast := takenOf_advanceBy hbegun hfirst snapshots.length
    rw [hpaused] at hlast
    rwa [List.getLastD_eq_getLast?, hs, Option.getD_some] at hlast
  · obtain ⟨n, hn⟩ : ∃ n, snapshots.length = n + 1 := by
      refine Nat.exists_eq_add_one.mpr (List.length_pos_iff.mpr ?_)
      rintro rfl
      cases hs
    rw [hn] at hpaused ⊢
    rw [advanceBy_of_begun (begin_of_assembled h hassemble), hpaused]

/-- Whatever fails has changed nothing. In place, an instruction that meets a
fault leaves its workplace as it was, and one that does not has the effect that
was worked out for it; this is how iterations advance. An iteration that nothing
interrupts leaves the machine as it was after its last snapshot when it fails. -/
theorem failure_changes_nothing :
    (∀ size p pc i (w : Workplace),
      match InPlace.execute size p pc i w with
      | .error f w' => effect size p pc i w.input w.state = .error f ∧ w' = w
      | .ok next w' =>
          ∃ e, effect size p pc i w.input w.state = .ok e ∧ next = e.next ∧
          w' = ⟨w.state.apply e.change, e.input⟩) ∧
    (∀ (c : Cursor) m, c.advance m = c.advanceInPlace m ∧
      ∀ e, (c.advance m).turn = .failed e → (c.advance m).machine = m) ∧
    ∀ job m snapshots e m', (Iteration.waiting job).Yields m snapshots (.failed e) m' →
      FailsCleanly job m snapshots m' := by
  refine ⟨fun size p pc i w => ?_,
    fun c m => ⟨(advanceInPlace_eq c m).symm, fun e he => ?_⟩, ?_⟩
  · rw [InPlace.execute_eq]
    cases heffect : effect size p pc i w.input w.state with
    | error f => exact ⟨rfl, rfl⟩
    | ok e => exact ⟨e, rfl, rfl, rfl⟩
  · have hfailed : c.advance m =
        ⟨.failed e, (c.advance m).iteration, (c.advance m).machine⟩ := by
      rw [← he]
    exact machine_of_failed hfailed
  · intro job m snapshots e m' hyields
    cases hsize : sizeError? m.memorySize with
    | some e' =>
        have hrefused := yields_of_refused (begin_of_refused hsize job)
        obtain ⟨rfl, -, rfl⟩ := hyields.unique hrefused
        exact failsCleanly_of_refused hsize job
    | none =>
        cases hassemble : assemble job.assembly with
        | error d =>
            have hrefused := yields_of_refused (begin_of_duplicate hsize hassemble)
            obtain ⟨rfl, -, rfl⟩ := hyields.unique hrefused
            exact failsCleanly_of_duplicate hsize job
        | ok p =>
            have hbegin := begin_of_assembled hsize hassemble
            exact failsCleanly_of_begun hsize hassemble
              ((yields_of_begun hbegin).mp hyields)

/-- A cell is written, and then loaded into a register that does not exist. -/
theorem failure_changes_nothing_unknown :
    let job : Job :=
      { assembly := "addi $s0, $s0, 7\nsb $s0, 0($sp)\nlbu $t0, 0($sp)" }
    ∃ m snapshots m', Machine.new 1 = .ok m ∧ snapshots.length = 2 ∧
      (Iteration.waiting job).Yields m snapshots
        (.failed (.fault (.program (.unknownRegister "$t0") 3))) m' ∧
      m'.state.memory = #[7] ∧ FailsCleanly job m snapshots m' := by
  intro job
  let m : Machine := { memorySize := 1, state := State.fresh 1 }
  have hstop : ((Iteration.waiting job).advanceBy 3 m).stop =
      .failed (.fault (.program (.unknownRegister "$t0") 3)) := by decide +kernel
  have hyields :
      (Iteration.waiting job).Yields m
        ((Iteration.waiting job).advanceBy 3 m).snapshots
        (.failed (.fault (.program (.unknownRegister "$t0") 3)))
        ((Iteration.waiting job).advanceBy 3 m).machine :=
    yields_iff_advanceBy.mpr ⟨nofun, 3, _, by rw [← hstop]⟩
  exact ⟨m, _, _, rfl, by decide +kernel, hyields, by decide +kernel,
    failure_changes_nothing.2.2 _ _ _ _ _ hyields⟩

end TapeMips.Machine
