import TapeMips.Proofs.Failures
import TapeMips.Proofs.Limits

/-!
# Snapshots, trace and result tell one story

An iteration can be watched in three ways. Its snapshots are taken behind the
instructions, a traced run prints a line in front of each, and a run that ends
returns the output. The three are made at different points of an advance, and some
advances make one and not another: the instruction that meets a fault has a line
and no snapshot, and the end of the program has a snapshot and no line.

A `Story` says how they fit together. It is told from a snapshot on: the next one
is either that of the instruction at the place where this one has left the program,
with its line, or the last one, which says that this place is the end. Every advance
adds to the story as the advance before has left it (`story_of_run`), so whatever
can be read off a story holds after any number of advances.

That nothing comes behind a `syscall` for the exit cannot be read off a story, because
snapshots do not show `$v0`; it is an induction of its own (`exit_is_last`).
-/

namespace TapeMips.Machine

open Asm

/-- The line of a trace for an instruction: its index, moved to the right in five
columns, and its text. -/
def Announces (pc : Nat) (text line : String) : Prop :=
  ∃ blanks : String, line = blanks ++ toString pc ++ ": " ++ text ∧
    (∀ c ∈ blanks.toList, c = ' ') ∧
    (blanks ++ toString pc).length = max 5 (toString pc).length

theorem toList_pushn (s : String) (c : Char) (n : Nat) :
    (s.pushn c n).toList = s.toList ++ List.replicate n c := by
  induction n with
  | zero => simp [String.pushn, Nat.repeat]
  | succ n ih =>
      have hpushn : s.pushn c (n + 1) = (s.pushn c n).push c := rfl
      rw [hpushn, String.toList_push, ih, List.append_assoc, List.replicate_succ']

theorem announces_traceLine (pc : Nat) (text : String) :
    Announces pc text
      ("".pushn ' ' (5 - (toString pc).length) ++ toString pc ++ ": " ++ text) := by
  refine ⟨_, rfl, fun c hc => ?_, ?_⟩
  · rw [toList_pushn, String.toList_empty, List.nil_append] at hc
    exact List.eq_of_mem_replicate hc
  · have hlength : ("".pushn ' ' (5 - (toString pc).length)).length =
        5 - (toString pc).length := by
      rw [← String.length_toList, toList_pushn]
      simp
    rw [String.length_append, hlength]
    omega

theorem traceLine?_of_pending {c : Cursor} {i : Instruction}
    (hcode : c.program.code[c.pc]? = some i) (hleft : c.isSpent = false) :
    ∃ line, c.traceLine? = some line ∧ Announces c.pc i.text line := by
  rw [Cursor.traceLine?, pending?_eq_some hcode hleft]
  exact ⟨_, rfl, announces_traceLine c.pc i.text⟩

theorem traceLine?_of_finished {c : Cursor} (hcode : c.program.code[c.pc]? = none) :
    c.traceLine? = none := by
  rw [Cursor.traceLine?, Cursor.pending?, hcode, ite_self]
  rfl

theorem traceLine?_of_spent {c : Cursor} (hspent : c.isSpent = true) :
    c.traceLine? = none := by
  rw [Cursor.traceLine?, Cursor.pending?, if_pos hspent]
  rfl

/-! ## Stories

A story is what comes behind a snapshot: more snapshots, the lines of the
trace, and a stop. It has one constructor for each way to stop and one for an
instruction in front of a story, and every relation between snapshots and
lines is an induction over it. -/

/-- What there is to see before the first instruction. -/
def Snapshot.first : Snapshot :=
  { step := 0, pc := 0, instruction := none, pointer := 0, output := "" }

/-- The snapshot reports the instruction at the place where the snapshot before it
has left the program. -/
structure Reports (p : Program) (before : Snapshot) (i : Instruction) (s : Snapshot) :
    Prop where
  code : p.code[before.pc]? = some i
  step : s.step = before.step + 1
  instruction : s.instruction = some i.text
  output : s.output = before.output ∨
    i.mnemonic = "syscall" ∧ ∃ c, s.output = before.output.push c

/-- The snapshot reports that the snapshot before it has left the program at its
end. -/
structure ReportsEnd (p : Program) (before s : Snapshot) : Prop where
  before_pc : before.pc = p.code.size
  pc : s.pc = p.code.size
  step : s.step = before.step
  instruction : s.instruction = none
  output : s.output = before.output

/-- The snapshot reports a `syscall` that has ended the program and left this
machine. -/
structure ReportsExit (p : Program) (before : Snapshot) (m : Machine) (i : Instruction)
    (s : Snapshot) : Prop extends Reports p before i s where
  mnemonic : i.mnemonic = "syscall"
  service : m.state.registers.v0 = 10
  pc : s.pc = before.pc

/-- The iteration has failed in the middle of an instruction. -/
def Stop.isFault : Stop → Bool
  | .failed (.fault _) => true
  | _ => false

/-- Nothing is left to do, whether or not that has been noticed. -/
def Stop.IsEnd (stop : Stop) : Prop := stop = .paused ∨ stop = .exhausted

theorem Stop.IsEnd.isFault {stop : Stop} (h : stop.IsEnd) : stop.isFault = false := by
  rcases h with rfl | rfl <;> rfl

/-- What is told behind a snapshot: more snapshots, the lines of the trace, how it
stops, and the machine at that point. -/
inductive Story (p : Program) :
    Snapshot → List Snapshot → List String → Stop → Machine → Prop where
  | paused {before : Snapshot} {m : Machine} : Story p before [] [] .paused m
  | spent {before : Snapshot} {m : Machine} :
      Story p before [] [] (.failed .stepLimit) m
  | fault {before : Snapshot} {i : Instruction} {line : String} {f : Fault}
      {m : Machine} (code : p.code[before.pc]? = some i)
      (announces : Announces before.pc i.text line) :
      Story p before [] [line] (.failed (.fault f)) m
  | finished {before s : Snapshot} {stop : Stop} {m : Machine}
      (reports : ReportsEnd p before s) (ended : stop.IsEnd) :
      Story p before [s] [] stop m
  | exit {before s : Snapshot} {i : Instruction} {line : String} {stop : Stop}
      {m : Machine} (reports : ReportsExit p before m i s)
      (announces : Announces before.pc i.text line) (ended : stop.IsEnd) :
      Story p before [s] [line] stop m
  | next {before s : Snapshot} {i : Instruction} {line : String}
      {snapshots : List Snapshot} {lines : List String} {stop : Stop} {m : Machine}
      (reports : Reports p before i s) (announces : Announces before.pc i.text line)
      (rest : Story p s snapshots lines stop m) :
      Story p before (s :: snapshots) (line :: lines) stop m

section Story

variable {p : Program} {before : Snapshot} {snapshots : List Snapshot}
  {lines : List String} {stop : Stop} {m : Machine}

theorem Story.follows (h : Story p before snapshots lines stop m) {k : Nat}
    {b s : Snapshot} (hb : (before :: snapshots)[k]? = some b)
    (hs : snapshots[k]? = some s) :
    (∃ i line, Reports p b i s ∧ lines[k]? = some line ∧ Announces b.pc i.text line) ∨
      k + 1 = snapshots.length ∧ ReportsEnd p b s := by
  induction h generalizing k with
  | paused => cases hs
  | spent => cases hs
  | fault => cases hs
  | finished reports =>
      cases k with
      | zero =>
          cases hb
          cases hs
          exact Or.inr ⟨rfl, reports⟩
      | succ k => cases hs
  | exit reports announces =>
      cases k with
      | zero =>
          cases hb
          cases hs
          exact Or.inl ⟨_, _, reports.toReports, rfl, announces⟩
      | succ k => cases hs
  | next reports announces _ ih =>
      cases k with
      | zero =>
          cases hb
          cases hs
          exact Or.inl ⟨_, _, reports, rfl, announces⟩
      | succ k =>
          rcases ih hb hs with hinstruction | ⟨hlast, hend⟩
          · exact Or.inl hinstruction
          · exact Or.inr ⟨by rw [List.length_cons, hlast], hend⟩

theorem Story.numbered (h : Story p before snapshots lines stop m) {k : Nat}
    {s : Snapshot} (hs : snapshots[k]? = some s)
    (hsome : s.instruction.isSome = true) : s.step = before.step + (k + 1) := by
  induction h generalizing k with
  | paused => cases hs
  | spent => cases hs
  | fault => cases hs
  | finished reports =>
      cases k with
      | zero =>
          cases hs
          rw [reports.instruction] at hsome
          cases hsome
      | succ k => cases hs
  | exit reports =>
      cases k with
      | zero =>
          cases hs
          exact reports.step
      | succ k => cases hs
  | next reports _ _ ih =>
      cases k with
      | zero =>
          cases hs
          exact reports.step
      | succ k =>
          rw [ih hs, reports.step]
          omega

theorem Reports.executed_cons {b s : Snapshot} {i : Instruction} (h : Reports p b i s)
    (rest : List Snapshot) : executed (s :: rest) = executed rest + 1 := by
  refine List.countP_cons_of_pos ?_
  rw [h.instruction]
  rfl

theorem Story.counted (h : Story p before snapshots lines stop m) :
    lines.length = executed snapshots + if stop.isFault then 1 else 0 := by
  induction h with
  | paused => rfl
  | spent => rfl
  | fault => rfl
  | finished reports ended =>
      rw [ended.isFault, executed,
        List.countP_cons_of_neg (by simp [reports.instruction])]
      rfl
  | exit reports _ ended =>
      rw [ended.isFault, reports.executed_cons]
      rfl
  | next reports _ _ ih =>
      rw [List.length_cons, ih, reports.executed_cons]
      omega

theorem Story.unfinished {f : Fault}
    (h : Story p before snapshots lines (.failed (.fault f)) m) :
    ∃ i line, p.code[(snapshots.getLastD before).pc]? = some i ∧
      lines[executed snapshots]? = some line ∧
      Announces (snapshots.getLastD before).pc i.text line := by
  generalize hstop : Stop.failed (.fault f) = stop at h
  induction h with
  | paused => cases hstop
  | spent => cases hstop
  | fault code announces => exact ⟨_, _, code, rfl, announces⟩
  | finished _ ended => rcases ended with rfl | rfl <;> cases hstop
  | exit _ _ ended => rcases ended with rfl | rfl <;> cases hstop
  | next reports _ _ ih =>
      obtain ⟨i, line, hcode, hline, hannounces⟩ := ih hstop
      rw [reports.executed_cons, List.getLastD_cons]
      exact ⟨i, line, hcode, hline, hannounces⟩

/-- A story that comes to its end does so with the snapshot of an exit or of the
end. -/
theorem Story.ends (h : Story p before snapshots lines .exhausted m) :
    ∃ earlier b s, before :: snapshots = earlier ++ [b, s] ∧
      ((∃ i, ReportsExit p b m i s) ∨ ReportsEnd p b s) := by
  generalize hstop : Stop.exhausted = stop at h
  induction h with
  | paused => cases hstop
  | spent => cases hstop
  | fault => cases hstop
  | finished reports => exact ⟨[], _, _, rfl, Or.inr reports⟩
  | exit reports => exact ⟨[], _, _, rfl, Or.inl ⟨_, reports⟩⟩
  | next _ _ _ ih =>
      obtain ⟨earlier, b, s, hsplit, hlast⟩ := ih hstop
      exact ⟨_ :: earlier, b, s, congrArg _ hsplit, hlast⟩

end Story

/-! ## Advances add to a story

The program stands where the snapshot in front of the story has left it: same
place, same count, same output. An advance keeps this, and so an iteration
tells the story of its snapshots. -/

/-- The program stands where a snapshot has left it. -/
structure StandsBehind (p : Program) (before : Snapshot) (c : Cursor) (m : Machine) :
    Prop where
  program : c.program = p
  pc : c.pc = before.pc
  step : c.steps = before.step
  output : m.state.output = before.output
  pc_le : c.pc ≤ p.code.size

theorem Performs.output {size : Int} {p : Program} {pc : Nat} {i : Instruction}
    {input : List Int} {s : State} {e : Effect} (h : Performs size p pc i input s e) :
    (s.apply e.change).output = s.output ∨
      i.mnemonic = "syscall" ∧ ∃ c, (s.apply e.change).output = s.output.push c := by
  cases h with
  | print mnemonic _ => exact Or.inr ⟨mnemonic, _, rfl⟩
  | add => exact Or.inl rfl
  | constant => exact Or.inl rfl
  | load => exact Or.inl rfl
  | store => exact Or.inl rfl
  | jump => exact Or.inl rfl
  | pass => exact Or.inl rfl
  | exit => exact Or.inl rfl
  | read => exact Or.inl rfl

section Advances

variable {p : Program} {before : Snapshot} {c : Cursor} {m : Machine}

theorem StandsBehind.reportsEnd (h : StandsBehind p before c m)
    (hcode : c.program.code[c.pc]? = none) :
    ReportsEnd p before (snapshot m.state c.steps c.pc none) := by
  have hge := Array.getElem?_eq_none_iff.mp hcode
  rw [h.program] at hge
  have hpc : c.pc = p.code.size := Nat.le_antisymm h.pc_le hge
  exact ⟨by rw [← h.pc, hpc], hpc, h.step, rfl, h.output⟩

theorem StandsBehind.reports (h : StandsBehind p before c m) {i : Instruction}
    (hcode : c.program.code[c.pc]? = some i) {e : Effect}
    (heffect : effect m.memorySize c.program c.pc i c.input m.state = .ok e)
    (pc : Nat) :
    Reports p before i
      (snapshot (m.change e.change).state (c.steps + 1) pc (some i.text)) where
  code := by rw [← h.pc, ← h.program, hcode]
  step := by rw [← h.step]; rfl
  instruction := rfl
  output := by
    rw [← h.output]
    exact (performs_of_effect heffect).output

theorem StandsBehind.reportsExit (h : StandsBehind p before c m) {i : Instruction}
    (hcode : c.program.code[c.pc]? = some i) {ch : Change} {input : List Int}
    (heffect : effect m.memorySize c.program c.pc i c.input m.state =
      .ok ⟨ch, input, .exit⟩) :
    ReportsExit p before (m.change ch) i
      (snapshot (m.change ch).state (c.steps + 1) c.pc (some i.text)) := by
  cases performs_of_effect heffect with
  | exit mnemonic service =>
      exact { h.reports hcode heffect c.pc with mnemonic, service, pc := h.pc }

theorem StandsBehind.goto (hfit : p.LabelsFit) (h : StandsBehind p before c m)
    {i : Instruction} (hcode : c.program.code[c.pc]? = some i) {ch : Change}
    {input : List Int} {pc : Nat}
    (heffect : effect m.memorySize c.program c.pc i c.input m.state =
      .ok ⟨ch, input, .goto pc⟩) :
    StandsBehind p (snapshot (m.change ch).state (c.steps + 1) pc (some i.text))
      (c.goto pc input) (m.change ch) where
  program := h.program
  pc := rfl
  step := rfl
  output := rfl
  pc_le := by
    have hlt : c.pc < p.code.size := by
      rw [← h.program]
      exact (Array.getElem?_eq_some_iff.mp hcode).1
    rw [h.program] at heffect
    exact (performs_of_effect heffect).goto_le hfit hlt rfl

/-- A run whose program has come to its end adds no more lines. -/
theorem Run.trace_of_over {r : Run} (houtcome : r.outcome = none)
    (hit : r.iteration = .over) (n : Nat) : (r.carryOn n).trace = r.trace := by
  cases n with
  | zero => rfl
  | succ n =>
      rw [Run.carryOn_succ, Run.step_over houtcome hit, Run.carryOn_of_isSome rfl]

theorem advanceBy_of_over (m : Machine) (n : Nat) :
    ∃ stop : Stop, Iteration.over.advanceBy n m = ⟨[], stop, .over, m⟩ ∧
      stop.IsEnd := by
  cases n with
  | zero => exact ⟨_, rfl, Or.inl rfl⟩
  | succ n => exact ⟨_, rfl, Or.inr rfl⟩

/-- A run goes on behind a snapshot, with the line of its instruction. -/
theorem Run.after_snapshot {r : Run} (houtcome : r.outcome = none)
    (hit : r.iteration = .running c) {s : Snapshot} {it : Iteration} {m : Machine}
    (h : c.advance r.machine = ⟨.snapshot s, it, m⟩) :
    r.step.outcome = none ∧ r.step.traced = r.traced ∧ r.step.iteration = it ∧
      r.step.machine = m ∧ r.step.trace = r.note c := by
  rw [Run.step_snapshot houtcome hit h]
  exact ⟨houtcome, rfl, rfl, rfl, rfl⟩

/-- A traced run in the middle of a program and the iteration that it follows tell
a story. -/
theorem story_of_run (hfit : p.LabelsFit) {r : Run} (houtcome : r.outcome = none)
    (htraced : r.traced = true) (hit : r.iteration = .running c)
    (h : StandsBehind p before c r.machine) (n : Nat) :
    ∃ lines, (r.carryOn n).trace = lines.reverse ++ r.trace ∧
      Story p before ((Iteration.running c).advanceBy n r.machine).snapshots lines
        ((Iteration.running c).advanceBy n r.machine).stop
        ((Iteration.running c).advanceBy n r.machine).machine := by
  induction n generalizing r c before with
  | zero => exact ⟨[], rfl, .paused⟩
  | succ n ih =>
      have hnote : r.note c = c.traceLine?.toList ++ r.trace := if_pos htraced
      have hadvances := advances c r.machine
      rw [Run.carryOn_succ, Iteration.advanceBy, Iteration.advance]
      generalize hadvance : c.advance r.machine = a at hadvances
      cases hadvances with
      | spent code spent =>
          rw [Run.step_failed houtcome hit hadvance, Run.carryOn_of_isSome rfl]
          rw [traceLine?_of_spent spent] at hnote
          exact ⟨[], hnote, .spent⟩
      | fault code left _ =>
          obtain ⟨line, hline, hannounces⟩ := traceLine?_of_pending code left
          rw [Run.step_failed houtcome hit hadvance, Run.carryOn_of_isSome rfl]
          rw [hline] at hnote
          rw [h.pc] at hannounces code
          rw [h.program] at code
          exact ⟨[line], hnote, .fault code hannounces⟩
      | finished code =>
          obtain ⟨houtcome', -, hit', -, htrace⟩ :=
            Run.after_snapshot houtcome hit hadvance
          obtain ⟨stop, hover, hended⟩ := advanceBy_of_over r.machine n
          rw [traceLine?_of_finished code] at hnote
          rw [Run.trace_of_over houtcome' hit', htrace]
          dsimp only
          rw [hover]
          exact ⟨[], hnote, .finished (h.reportsEnd code) hended⟩
      | exit code left heffect =>
          obtain ⟨houtcome', -, hit', -, htrace⟩ :=
            Run.after_snapshot houtcome hit hadvance
          obtain ⟨stop, hover, hended⟩ := advanceBy_of_over (r.machine.change _) n
          obtain ⟨line, hline, hannounces⟩ := traceLine?_of_pending code left
          rw [hline] at hnote
          rw [h.pc] at hannounces
          rw [Run.trace_of_over houtcome' hit', htrace]
          dsimp only
          rw [hover]
          exact ⟨[line], hnote, .exit (h.reportsExit code heffect) hannounces hended⟩
      | goto code left heffect =>
          obtain ⟨houtcome', htraced', hit', hmachine, htrace⟩ :=
            Run.after_snapshot houtcome hit hadvance
          obtain ⟨line, hline, hannounces⟩ := traceLine?_of_pending code left
          rw [h.pc] at hannounces
          have hbehind := h.goto hfit code heffect
          rw [← hmachine] at hbehind
          obtain ⟨lines, hlines, hstory⟩ :=
            ih houtcome' (htraced'.trans htraced) hit' hbehind
          rw [hmachine] at hstory
          refine ⟨line :: lines, ?_,
            .next (h.reports code heffect _) hannounces hstory⟩
          rw [hlines, htrace, hnote, hline]
          simp

theorem effect_exit {size : Int} {pc : Nat} {i : Instruction} {input : List Int}
    {s : State} (hmnemonic : i.mnemonic = "syscall") (hservice : s.registers.v0 = 10) :
    effect size p pc i input s = .ok ⟨.none, input, .exit⟩ := by
  simp only [effect, hmnemonic, callService, hservice, if_pos]
  rfl

/-- A `syscall` for the exit is the last instruction, and its snapshot stays in
front of it. -/
theorem exit_is_last (hfit : p.LabelsFit) (h : StandsBehind p before c m) {n k : Nat}
    {b s : Snapshot} {i : Instruction}
    (hb : (before :: ((Iteration.running c).advanceBy n m).snapshots)[k]? = some b)
    (hs : ((Iteration.running c).advanceBy n m).snapshots[k]? = some s)
    (hcode : p.code[b.pc]? = some i) (hmnemonic : i.mnemonic = "syscall")
    (hservice :
      ((Iteration.running c).advanceBy k m).machine.state.registers.v0 = 10) :
    k + 1 = ((Iteration.running c).advanceBy n m).snapshots.length ∧ s.pc = b.pc := by
  induction k generalizing c m before n with
  | zero =>
      cases hb
      have hstands : c.program.code[c.pc]? = some i := by rw [h.program, h.pc, hcode]
      have hexit : effect m.memorySize c.program c.pc i c.input m.state = _ :=
        effect_exit hmnemonic hservice
      cases n with
      | zero => cases hs
      | succ n =>
          have hadvances := advances c m
          rw [Iteration.advanceBy, Iteration.advance] at hs ⊢
          generalize c.advance m = a at hadvances hs ⊢
          cases hadvances with
          | spent => cases hs
          | fault => cases hs
          | finished code =>
              rw [hstands] at code
              cases code
          | goto code left heffect =>
              rw [hstands] at code
              cases code
              rw [hexit] at heffect
              cases heffect
          | exit =>
              obtain ⟨stop, hover, -⟩ := advanceBy_of_over (m.change _) n
              cases hs
              dsimp only
              rw [hover]
              exact ⟨rfl, h.pc⟩
  | succ k ih =>
      cases n with
      | zero => cases hs
      | succ n =>
          have hadvances := advances c m
          rw [Iteration.advanceBy, Iteration.advance] at hb hs hservice ⊢
          generalize c.advance m = a at hadvances hb hs hservice ⊢
          cases hadvances with
          | spent => cases hs
          | fault => cases hs
          | finished =>
              obtain ⟨stop, hover, -⟩ := advanceBy_of_over m n
              dsimp only at hs
              rw [hover] at hs
              cases hs
          | exit =>
              obtain ⟨stop, hover, -⟩ := advanceBy_of_over (m.change _) n
              dsimp only at hs
              rw [hover] at hs
              cases hs
          | goto code left heffect =>
              obtain ⟨hlast, hpc⟩ := ih (h.goto hfit code heffect) hb hs hservice
              exact ⟨congrArg (· + 1) hlast, hpc⟩

end Advances

/-- The lines that a traced run of a job has printed after a number of advances.
Beginning prints nothing and takes a step of its own. -/
def Job.lines (job : Job) (m : Machine) (advances : Nat) : List String :=
  ((Run.start job m true).carryOn (advances + 1)).trace.reverse

/-- What can be seen of a job that is advanced any number of times, and of one
that ends. -/
structure OneStory (p : Program) (job : Job) (m : Machine) : Prop where
  /-- The snapshots of instructions are numbered from one. -/
  numbered : ∀ n k s, ((Iteration.waiting job).advanceBy n m).snapshots[k]? = some s →
    s.instruction.isSome = true → s.step = k + 1
  /-- A snapshot follows the one before it, and unless it is that of the end it
  has a line. -/
  follows : ∀ n k before s,
    (Snapshot.first :: ((Iteration.waiting job).advanceBy n m).snapshots)[k]? =
      some before →
    ((Iteration.waiting job).advanceBy n m).snapshots[k]? = some s →
    (∃ i line, Reports p before i s ∧ (job.lines m n)[k]? = some line ∧
      Announces before.pc i.text line) ∨
    k + 1 = ((Iteration.waiting job).advanceBy n m).snapshots.length ∧
      ReportsEnd p before s
  counted : ∀ n, (job.lines m n).length =
    executed ((Iteration.waiting job).advanceBy n m).snapshots +
      if ((Iteration.waiting job).advanceBy n m).stop.isFault then 1 else 0
  /-- The line without a snapshot is that of the instruction that has met the fault. -/
  unfinished : ∀ n f, ((Iteration.waiting job).advanceBy n m).stop =
    .failed (.fault f) →
    ∃ before i line,
      before = ((Iteration.waiting job).advanceBy n m).snapshots.getLastD .first ∧
      p.code[before.pc]? = some i ∧ (job.lines m n).getLast? = some line ∧
      Announces before.pc i.text line
  /-- Nothing comes behind a `syscall` for the exit. -/
  exits : ∀ n k before s i,
    (Snapshot.first :: ((Iteration.waiting job).advanceBy n m).snapshots)[k]? =
      some before →
    ((Iteration.waiting job).advanceBy n m).snapshots[k]? = some s →
    p.code[before.pc]? = some i → i.mnemonic = "syscall" →
    ((Iteration.waiting job).advanceBy k m).machine.state.registers.v0 = 10 →
    k + 1 = ((Iteration.waiting job).advanceBy n m).snapshots.length ∧ s.pc = before.pc
  ends : ∀ snapshots m', (Iteration.waiting job).Yields m snapshots .exhausted m' →
    ∃ earlier before last, Snapshot.first :: snapshots = earlier ++ [before, last] ∧
      Xor (∃ i, ReportsExit p before m' i last) (ReportsEnd p before last)
  returns : ∀ traced output m', (Run.start job m traced).Ends (.ok output) m' ↔
    ∃ snapshots last, (Iteration.waiting job).Yields m snapshots .exhausted m' ∧
      snapshots.getLast? = some last ∧ last.output = output

section Jobs

variable {size : Int} {m : Machine} {job : Job} {p : Program}

theorem standsBehind_first (hnew : Machine.new size = .ok m) (job : Job)
    (p : Program) : StandsBehind p .first (job.cursor p) m := by
  obtain ⟨-, rfl, -⟩ := new_eq_ok hnew
  exact ⟨rfl, rfl, rfl, rfl, Nat.zero_le _⟩

/-- All that distinguishes a job that waits on a new machine from its program is
that it waits. -/
theorem advanceBy_of_new (hnew : Machine.new size = .ok m)
    (hassemble : assemble job.assembly = .ok p) (n : Nat) :
    ∃ it, (Iteration.waiting job).advanceBy n m =
      { (Iteration.running (job.cursor p)).advanceBy n m with iteration := it } := by
  cases n with
  | zero => exact ⟨_, rfl⟩
  | succ n =>
      rw [advanceBy_of_begun (begin_of_new hnew hassemble)]
      exact ⟨_, rfl⟩

theorem story_of_new (hnew : Machine.new size = .ok m)
    (hassemble : assemble job.assembly = .ok p) (n : Nat) :
    Story p .first ((Iteration.waiting job).advanceBy n m).snapshots (job.lines m n)
      ((Iteration.waiting job).advanceBy n m).stop
      ((Iteration.waiting job).advanceBy n m).machine := by
  have hbegin := begin_of_new hnew hassemble
  have hstep : (Run.start job m true).step = _ := Run.step_waiting_ok rfl rfl hbegin
  have hbehind : StandsBehind p .first (job.cursor p)
      (Run.start job m true).step.machine := by
    rw [hstep]
    exact standsBehind_first hnew job p
  obtain ⟨lines, hlines, hstory⟩ := story_of_run (labelsFit_assemble hassemble)
    (r := (Run.start job m true).step) (by rw [hstep]; rfl) (by rw [hstep]; rfl)
    (by rw [hstep]) hbehind n
  obtain ⟨it, hit⟩ := advanceBy_of_new hnew hassemble n
  have htrace : job.lines m n = lines := by
    rw [Job.lines, Run.carryOn_succ, hlines, hstep]
    simp [Run.start]
  rw [hit, htrace]
  rw [hstep] at hstory
  exact hstory

theorem story_of_yields (hnew : Machine.new size = .ok m)
    (hassemble : assemble job.assembly = .ok p) {snapshots : List Snapshot}
    {stop : Stop} {m' : Machine}
    (h : (Iteration.waiting job).Yields m snapshots stop m') :
    ∃ n, Story p .first snapshots (job.lines m n) stop m' := by
  obtain ⟨-, n, it', hn⟩ := yields_iff_advanceBy.mp h
  have hstory := story_of_new hnew hassemble n
  rw [hn] at hstory
  exact ⟨n, hstory⟩

theorem takenOf_of_yields (hnew : Machine.new size = .ok m)
    (hassemble : assemble job.assembly = .ok p) {snapshots : List Snapshot}
    {stop : Stop} {m' : Machine}
    (h : (Iteration.waiting job).Yields m snapshots stop m') :
    (snapshots.getLastD .first).TakenOf m'.state := by
  have hfirst : Snapshot.first.TakenOf m.state := by
    obtain ⟨-, rfl, -⟩ := new_eq_ok hnew
    exact ⟨rfl, rfl⟩
  have hrunning := (yields_of_begun (begin_of_new hnew hassemble)).mp h
  obtain ⟨-, n, it', hn⟩ := yields_iff_advanceBy.mp hrunning
  have hbegun : (Iteration.running (job.cursor p)).HasBegun := trivial
  have htaken := takenOf_advanceBy hbegun hfirst n
  rw [hn] at htaken
  exact htaken

/-- The last snapshot of a run that returns shows what it returns. -/
theorem exists_last_output (hnew : Machine.new size = .ok m)
    (hassemble : assemble job.assembly = .ok p) {snapshots : List Snapshot}
    {m' : Machine} (h : (Iteration.waiting job).Yields m snapshots .exhausted m') :
    ∃ last, snapshots.getLast? = some last ∧ last.output = m'.state.output := by
  have htaken := takenOf_of_yields hnew hassemble h
  obtain ⟨n, hstory⟩ := story_of_yields hnew hassemble h
  cases hlast : snapshots.getLast? with
  | some last =>
      rw [List.getLastD_eq_getLast?, hlast] at htaken
      exact ⟨last, rfl, htaken.output⟩
  | none =>
      rw [List.getLast?_eq_none_iff] at hlast
      obtain ⟨earlier, before, s, hsplit, -⟩ := hstory.ends
      have hlength := congrArg List.length hsplit
      simp [hlast] at hlength

theorem exit_or_end (hnew : Machine.new size = .ok m)
    (hassemble : assemble job.assembly = .ok p) {snapshots : List Snapshot}
    {m' : Machine} (h : (Iteration.waiting job).Yields m snapshots .exhausted m') :
    ∃ earlier before last, Snapshot.first :: snapshots = earlier ++ [before, last] ∧
      Xor (∃ i, ReportsExit p before m' i last) (ReportsEnd p before last) := by
  obtain ⟨n, hstory⟩ := story_of_yields hnew hassemble h
  obtain ⟨earlier, before, last, hsplit, hlast⟩ := hstory.ends
  have hnever : ∀ i, ReportsExit p before m' i last → ¬ ReportsEnd p before last := by
    intro i hexit hend
    have hcode := hexit.code
    rw [hend.before_pc, Array.getElem?_eq_none (Nat.le_refl _)] at hcode
    cases hcode
  refine ⟨earlier, before, last, hsplit, ?_⟩
  rcases hlast with ⟨i, hexit⟩ | hend
  · exact Or.inl ⟨⟨i, hexit⟩, hnever i hexit⟩
  · exact Or.inr ⟨hend, fun ⟨i, hexit⟩ => hnever i hexit hend⟩

theorem oneStory_of_new (hnew : Machine.new size = .ok m)
    (hassemble : assemble job.assembly = .ok p) : OneStory p job m where
  numbered := by
    intro n k s hs hsome
    rw [(story_of_new hnew hassemble n).numbered hs hsome]
    exact Nat.zero_add _
  follows := fun n k before s hbefore hs =>
    (story_of_new hnew hassemble n).follows hbefore hs
  counted := fun n => (story_of_new hnew hassemble n).counted
  unfinished := by
    intro n f hstop
    have hstory := story_of_new hnew hassemble n
    have hcounted := hstory.counted
    rw [hstop] at hstory hcounted
    obtain ⟨i, line, hcode, hline, hannounces⟩ := hstory.unfinished
    refine ⟨_, i, line, rfl, hcode, ?_, hannounces⟩
    rw [List.getLast?_eq_getElem?, hcounted]
    exact hline
  exits := by
    intro n k before s i hbefore hs hcode hmnemonic hservice
    obtain ⟨it, hn⟩ := advanceBy_of_new hnew hassemble n
    obtain ⟨it', hk⟩ := advanceBy_of_new hnew hassemble k
    rw [hn] at hbefore hs ⊢
    rw [hk] at hservice
    exact exit_is_last (labelsFit_assemble hassemble)
      (standsBehind_first hnew job p) hbefore hs hcode hmnemonic hservice
  ends := fun snapshots m' h => exit_or_end hnew hassemble h
  returns := by
    intro traced output m'
    rw [Run.ends_ok_iff]
    constructor
    · rintro ⟨snapshots, hyields, rfl⟩
      obtain ⟨last, hlast, houtput⟩ := exists_last_output hnew hassemble hyields
      exact ⟨snapshots, last, hyields, hlast, houtput⟩
    · rintro ⟨snapshots, last, hyields, hlast, rfl⟩
      obtain ⟨last', hlast', houtput⟩ := exists_last_output hnew hassemble hyields
      rw [hlast] at hlast'
      cases hlast'
      exact ⟨snapshots, hyields, houtput.symm⟩

end Jobs

/-- On a new machine of any size, for any text, input and limit: a text that
cannot be assembled shows nothing, and for any other the snapshots, the trace and
the result agree. -/
theorem iteration_tells_one_story {size : Int} {m : Machine}
    (hnew : Machine.new size = .ok m) (job : Job) :
    (∀ d, assemble job.assembly = .error d →
      ∀ n, (Iteration.waiting job).advanceBy (n + 1) m =
        ⟨[], .failed (.duplicateLabel d), .over, m⟩ ∧ job.lines m n = []) ∧
    ∀ p, assemble job.assembly = .ok p → OneStory p job m := by
  refine ⟨fun d hduplicate n => ?_, fun p hassemble => oneStory_of_new hnew hassemble⟩
  have hbegin : job.begin m = _ := begin_of_new_duplicate hnew hduplicate
  have hstep : (Run.start job m true).step = _ := Run.step_waiting_error rfl rfl hbegin
  refine ⟨advanceBy_of_refused hbegin n, ?_⟩
  rw [Job.lines, Run.carryOn_succ, hstep, Run.carryOn_of_isSome rfl]
  rfl

/-- One character and the end of the program: three instructions with a line each,
the last snapshot without one. -/
theorem iteration_tells_one_story_print :
    let job : Job := { assembly := "li $a0, 72\nli $v0, 11\nsyscall" }
    ∃ m p, Machine.new 1 = .ok m ∧ assemble job.assembly = .ok p ∧ OneStory p job m ∧
      (((Iteration.waiting job).advanceBy 5 m).snapshots.map fun s =>
        (s.step, s.pc, s.output)) =
        [(1, 1, ""), (2, 2, ""), (3, 3, "H"), (3, 3, "H")] ∧
      job.lines m 5 = ["    0: li $a0, 72", "    1: li $v0, 11",
          "    2: syscall"] := by
  intro job
  have hassemble : assemble job.assembly = .ok { code := #[⟨⟨"li", ["$a0", "72"]⟩, 1⟩,
      ⟨⟨"li", ["$v0", "11"]⟩, 2⟩, ⟨⟨"syscall", []⟩, 3⟩] } := by decide +kernel
  have hnew : Machine.new 1 = .ok { memorySize := 1, state := State.fresh 1 } := rfl
  exact ⟨_, _, hnew, hassemble, (iteration_tells_one_story hnew job).2 _ hassemble,
    by decide +kernel, by decide +kernel⟩

end TapeMips.Machine
