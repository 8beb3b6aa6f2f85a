import TapeMips.Proofs.Blocks
import TapeMips.Proofs.Layout

/-!
# Compiled programs run as their source does

The tape machine and the machine that carries out the code of its source go side
by side (`Tracks`): when the first stands in front of a character, the second
stands in front of the block of that character, and it shows the tape. The block
of an action ends where the next block begins. The label to which a bracket may
jump stands at the end of the block of its partner, so the jump ends in front of
the character behind the partner, which is where the tape machine goes.

One character of the tape machine is thus as many instructions as its block has.
A run of the tape machine that halts or faults is carried over character by
character. A run without end needs a further argument, because comments have
empty blocks: between two blocks that are not empty the position only grows, and
it cannot grow for ever (`Tracks.progress`).

The two machines can only end in matching ways, and each ends in at most one way.
So the implications from the tape machine to its code give the converse as well.
-/

namespace TapeMips.Machine

open Asm Source Codegen

/-- A tape machine in front of a character, and a program in front of that
character's block. -/
structure Tracks (t : Tape.Machine) (c : Cursor) (m : Machine) : Prop where
  balanced : depthAfter? 0 t.source = some 0
  program : c.program = Program.ofLines (code t.source)
  limit : c.limit = none
  position_le : t.position ≤ t.source.length
  pc : c.pc = offset t.source t.position
  input : c.input = t.state.input
  shown : Shows t.state m

section Step

variable {t t' : Tape.Machine} {c : Cursor} {m : Machine} {s : Tape.State}

theorem Tracks.standsAt (h : Tracks t c m) {x : Char}
    (hx : t.source[t.position]? = some x) :
    c.program.StandsAt c.pc (operations (blockAt t.source t.position)) := by
  rw [h.program, h.pc]
  exact standsAt_blockAt (List.getElem?_eq_some_iff.mp hx).1

/-- Behind a test the two machines stand at the same character again, if the two
places that the branch may lead to begin the blocks of the two that the bracket
may lead to. -/
theorem Tracks.test (h : Tracks t c m) {o : Operation} {ifZero ifNot : Nat}
    (hat : c.program.StandsAt c.pc [⟨"lbu", ["$s0", "0($sp)"]⟩, o])
    (heffect : ∀ line (state : State), effect m.memorySize c.program (c.pc + 1)
      ⟨o, line⟩ c.input state =
        .ok ⟨.none, c.input,
          .goto (if state.registers.s0 = 0 then offset t.source ifZero
            else offset t.source ifNot)⟩)
    (hzero : ifZero ≤ t.source.length) (hnot : ifNot ≤ t.source.length)
    (hstep : t.test ifZero ifNot = .next t') :
    ∃ c' m', Moves 2 c m c' m' ∧ Tracks t' c' m' := by
  obtain ⟨cell, hcell, rfl⟩ := Tape.Machine.next_of_test hstep
  obtain ⟨m', hmoves, hshown⟩ := moves_test hat heffect h.limit h.shown hcell
  refine ⟨_, m', hmoves, h.balanced, h.program, h.limit, ?_, ?_, h.input, hshown⟩
  · show (if cell = 0 then ifZero else ifNot) ≤ t.source.length
    split
    · exact hzero
    · exact hnot
  · show (if cell = 0 then _ else _) = offset t.source (if cell = 0 then _ else _)
    split <;> rfl

theorem Tracks.enter (h : Tracks t c m) {j : Nat} (hj : Partners t.source t.position j)
    (hstep : t.step = .next t') : ∃ c' m', Moves 2 c m c' m' ∧ Tracks t' c' m' := by
  have hat := h.standsAt hj.getElem?_left
  rw [blockAt_open hj.getElem?_left] at hat
  rw [Tape.Machine.step_open hj.getElem?_left, hj.closing_eq] at hstep
  have htarget := target?_loopEnd h.balanced hj
  rw [← h.program] at htarget
  have hlt := hj.lt
  have hlen := hj.lt_length
  refine h.test hat (fun line state => ?_) (by omega) (by omega) hstep
  rw [effect_beq htarget, offset_succ hj.getElem?_left,
    offset_succ hj.getElem?_right, h.pc]
  rfl

theorem Tracks.leave (h : Tracks t c m) {i : Nat} (hi : Partners t.source i t.position)
    (hstep : t.step = .next t') : ∃ c' m', Moves 2 c m c' m' ∧ Tracks t' c' m' := by
  have hat := h.standsAt hi.getElem?_right
  rw [blockAt_close hi] at hat
  rw [Tape.Machine.step_close hi.getElem?_right, hi.opening_eq] at hstep
  have htarget := target?_loopStart h.balanced hi
  rw [← h.program] at htarget
  have hlt := hi.lt
  have hlen := hi.lt_length
  refine h.test hat (fun line state => ?_) (by omega) (by omega) hstep
  rw [effect_bne htarget, offset_succ hi.getElem?_left,
    offset_succ hi.getElem?_right, h.pc]
  rfl

/-- A character that moves the tape machine on moves the program through its block. -/
theorem Tracks.next (h : Tracks t c m) {x : Char} (hx : t.source[t.position]? = some x)
    (hstep : t.step = .next t') :
    ∃ c' m', Moves (blockSize x) c m c' m' ∧ Tracks t' c' m' := by
  have hlt : t.position < t.source.length := (List.getElem?_eq_some_iff.mp hx).1
  rcases place_cases h.balanced hx with ⟨j, hj⟩ | ⟨i, hi⟩ | hflat
  · have hopen : x = '[' := by simpa [hx] using hj.getElem?_left
    subst hopen
    exact h.enter hj hstep
  · have hclose : x = ']' := by simpa [hx] using hi.getElem?_right
    subst hclose
    exact h.leave hi hstep
  · have hat := h.standsAt hx
    rw [blockAt_flat hx hflat, flatBlock] at hat
    have hpc := offset_succ hx
    rw [blockSize] at hpc ⊢
    cases hcommand : Command.ofChar? x with
    | none =>
        rw [Tape.Machine.step_comment hx hcommand] at hstep
        cases hstep
        rw [hcommand] at hpc
        exact ⟨c, m, .refl c m, h.balanced, h.program, h.limit, hlt,
          h.pc.trans hpc.symm, h.input, h.shown⟩
    | some k =>
        cases k with
        | act a =>
            rw [hcommand] at hat hpc
            obtain ⟨s', hact, rfl⟩ := Tape.Machine.next_of_action hx hcommand hstep
            obtain ⟨m', hmoves, hshown⟩ :=
              moves_block hat h.limit h.input h.shown hact
            refine ⟨_, m', hmoves, h.balanced, h.program, h.limit, hlt,
              ?_, rfl, hshown⟩
            show c.pc + (Command.act a).size = _
            rw [h.pc, hpc]
            rfl
        | loopOpen => exact absurd hcommand hflat.not_loopOpen
        | loopClose => exact absurd hcommand hflat.not_loopClose

theorem Tracks.test_fault (h : Tracks t c m) {ops : List Operation}
    {ifZero ifNot : Nat}
    (hat : c.program.StandsAt c.pc (⟨"lbu", ["$s0", "0($sp)"]⟩ :: ops))
    (hstep : t.test ifZero ifNot = .fault s) : Breaks s c m := by
  obtain ⟨hcell, rfl⟩ := Tape.Machine.fault_of_test hstep
  exact breaks_load hat h.limit h.shown hcell

theorem Tracks.fault (h : Tracks t c m) (hstep : t.step = .fault s) :
    Breaks s c m := by
  cases hx : t.source[t.position]? with
  | none =>
      rw [Tape.Machine.step_of_none hx] at hstep
      cases hstep
  | some x =>
      have hat := h.standsAt hx
      rcases place_cases h.balanced hx with ⟨j, hj⟩ | ⟨i, hi⟩ | hflat
      · rw [blockAt_open hj.getElem?_left] at hat
        rw [Tape.Machine.step_open hj.getElem?_left] at hstep
        exact h.test_fault hat hstep
      · rw [blockAt_close hi] at hat
        rw [Tape.Machine.step_close hi.getElem?_right] at hstep
        exact h.test_fault hat hstep
      · rw [blockAt_flat hx hflat, flatBlock] at hat
        cases hcommand : Command.ofChar? x with
        | none =>
            rw [Tape.Machine.step_comment hx hcommand] at hstep
            cases hstep
        | some k =>
            cases k with
            | act a =>
                rw [hcommand] at hat
                rw [Tape.Machine.step_action hx hcommand] at hstep
                cases hact : t.state.act? a with
                | none =>
                    rw [hact] at hstep
                    cases hstep
                    exact breaks_block hat h.limit h.shown hact
                | some s' =>
                    rw [hact] at hstep
                    cases hstep
            | loopOpen => exact absurd hcommand hflat.not_loopOpen
            | loopClose => exact absurd hcommand hflat.not_loopClose

theorem Tracks.standsAt_exit (h : Tracks t c m) (hstep : t.step = .halted s) :
    c.program.StandsAt c.pc (operations programExit) ∧ s = t.state := by
  have hx := Tape.Machine.getElem?_of_halted hstep
  have hend : t.position = t.source.length :=
    Nat.le_antisymm h.position_le (List.getElem?_eq_none_iff.mp hx)
  rw [Tape.Machine.step_of_none hx] at hstep
  cases hstep
  rw [h.program, h.pc, hend]
  exact ⟨standsAt_programExit t.source, rfl⟩

theorem Tracks.halted (h : Tracks t c m) (hstep : t.step = .halted s) :
    Finishes s c m := by
  obtain ⟨hat, rfl⟩ := h.standsAt_exit hstep
  exact finishes_programExit hat h.limit h.shown

end Step

/-! ## Whole runs

The invariant gives one command at a time. Carried along a run of the tape
machine, it turns its end into the end of the program; and as the tape machine
always does one of three things, so does the program. -/

section Runs

variable {t : Tape.Machine} {c : Cursor} {m : Machine} {s : Tape.State}

/-- The program can be moved to where it stands side by side with the tape machine. -/
def Follows (c : Cursor) (m : Machine) (t : Tape.Machine) : Prop :=
  ∃ n c' m', Moves n c m c' m' ∧ Tracks t c' m'

theorem Follows.next {t t' : Tape.Machine} (h : Follows c m t)
    (hstep : t.step = .next t') : Follows c m t' := by
  obtain ⟨n, c', m', hmoves, htracks⟩ := h
  obtain ⟨x, hx⟩ := Tape.Machine.getElem?_of_next hstep
  obtain ⟨c'', m'', hmore, htracks'⟩ := htracks.next hx hstep
  exact ⟨_, c'', m'', hmoves.trans hmore, htracks'⟩

theorem Tracks.follows (h : Tracks t c m) : Follows c m t := ⟨0, c, m, .refl c m, h⟩

theorem Tracks.finishes (h : Tracks t c m) (hhalts : t.Halts s) : Finishes s c m := by
  obtain ⟨n, hn⟩ := hhalts
  obtain ⟨t', ⟨k, c', m', hmoves, htracks⟩, hlast⟩ := Tape.Machine.last_of_invariant
    (Follows c m) (fun _ _ => Follows.next) h.follows hn (fun _ => by simp)
  exact (htracks.halted hlast).of_moves hmoves

theorem Tracks.breaks (h : Tracks t c m) (hfaults : t.Faults s) : Breaks s c m := by
  obtain ⟨n, hn⟩ := hfaults
  obtain ⟨t', ⟨k, c', m', hmoves, htracks⟩, hlast⟩ := Tape.Machine.last_of_invariant
    (Follows c m) (fun _ _ => Follows.next) h.follows hn (fun _ => by simp)
  exact (htracks.fault hlast).of_moves hmoves

/-- A tape machine that goes on for ever comes to a character with instructions. -/
theorem Tracks.progress (h : Tracks t c m) (hendless : t.Endless) :
    ∃ n t' c' m', 0 < n ∧ Moves n c m c' m' ∧ Tracks t' c' m' ∧ t'.Endless := by
  -- Comments are passed over, so what is left of the source gets shorter.
  generalize hleft : t.source.length - t.position = left
  induction left using Nat.strongRecOn generalizing t with
  | ind left ih =>
      obtain ⟨t', hstep, hendless'⟩ := hendless.next
      obtain ⟨x, hx⟩ := Tape.Machine.getElem?_of_next hstep
      have hlt : t.position < t.source.length := (List.getElem?_eq_some_iff.mp hx).1
      obtain ⟨c', m', hmoves, htracks⟩ := h.next hx hstep
      cases hcommand : Command.ofChar? x with
      | some k =>
          refine ⟨_, t', c', m', ?_, hmoves, htracks, hendless'⟩
          rw [blockSize, hcommand]
          exact k.size_pos
      | none =>
          have hsize : blockSize x = 0 := by rw [blockSize, hcommand]; rfl
          rw [hsize] at hmoves
          cases hmoves
          rw [Tape.Machine.step_comment hx hcommand] at hstep
          cases hstep
          refine ih _ ?_ htracks hendless' rfl
          show t.source.length - (t.position + 1) < left
          omega

theorem Tracks.endless (h : Tracks t c m) (hendless : t.Endless) (k : Nat) :
    ∃ n c' m', k ≤ n ∧ Moves n c m c' m' := by
  induction k generalizing t c m with
  | zero => exact ⟨0, c, m, Nat.le_refl 0, .refl c m⟩
  | succ k ih =>
      obtain ⟨n, t', c', m', hpos, hmoves, htracks, hendless'⟩ := h.progress hendless
      obtain ⟨n', c'', m'', hle, hrest⟩ := ih htracks hendless'
      exact ⟨n + n', c'', m'', by omega, hmoves.trans hrest⟩

end Runs

/-- The run does what the tape machine does. It returns where the tape machine
halts, with the output and the tape; it fails where the tape machine faults, for
want of a cell at the pointer, and for no other reason; and it goes on without end
if the tape machine does. -/
structure Simulates (t : Tape.Machine) (r : Run) : Prop where
  halts : ∀ s, t.Halts s → ∃ m, r.Ends (.ok s.output) m ∧ Shows s m
  returns : ∀ output m, r.Ends (.ok output) m → ∃ s, t.Halts s ∧
    s.output = output ∧ Shows s m
  faults : ∀ s, t.Faults s →
    ∃ line m, r.Ends (.error (noCell s.pointer line)) m ∧ Shows s m
  fails : ∀ e m, r.Ends (.error e) m → ∃ s line, t.Faults s ∧
    e = noCell s.pointer line ∧ Shows s m
  endless_iff : t.Endless ↔ r.Endless

/-- A run matches a tape machine as soon as it follows it into each of the three
things that it can come to. -/
theorem Simulates.of_forward {t : Tape.Machine} {r : Run}
    (halts : ∀ s, t.Halts s → ∃ m, r.Ends (.ok s.output) m ∧ Shows s m)
    (faults : ∀ s, t.Faults s →
      ∃ line m, r.Ends (.error (noCell s.pointer line)) m ∧ Shows s m)
    (endless : t.Endless → r.Endless) : Simulates t r where
  halts := halts
  faults := faults
  returns := by
    intro output m hends
    rcases t.halts_or_faults_or_endless with ⟨s, hs⟩ | ⟨s, hs⟩ | hs
    · obtain ⟨m', hr, hshows⟩ := halts s hs
      obtain ⟨hresult, rfl⟩ := hr.unique hends
      cases hresult
      exact ⟨s, hs, rfl, hshows⟩
    · obtain ⟨line, m', hr, _⟩ := faults s hs
      cases (hr.unique hends).1
    · exact absurd hends (endless hs).not_ends
  fails := by
    intro e m hends
    rcases t.halts_or_faults_or_endless with ⟨s, hs⟩ | ⟨s, hs⟩ | hs
    · obtain ⟨m', hr, _⟩ := halts s hs
      cases (hr.unique hends).1
    · obtain ⟨line, m', hr, hshows⟩ := faults s hs
      obtain ⟨hresult, rfl⟩ := hr.unique hends
      cases hresult
      exact ⟨s, line, hs, rfl, hshows⟩
    · exact absurd hends (endless hs).not_ends
  endless_iff := by
    refine ⟨endless, fun hr => ?_⟩
    rcases t.halts_or_faults_or_endless with ⟨s, hs⟩ | ⟨s, hs⟩ | hs
    · obtain ⟨m', hends, _⟩ := halts s hs
      exact absurd hends hr.not_ends
    · obtain ⟨line, m', hends, _⟩ := faults s hs
      exact absurd hends hr.not_ends
    · exact hs

theorem simulates_midway {t : Tape.Machine} {c : Cursor} {m : Machine}
    (h : Tracks t c m) : Simulates t (Run.midway c m) := by
  refine .of_forward (fun s hs => ?_) (fun s hs => ?_) fun hs =>
    Run.endless_of_moves (h.endless hs)
  · obtain ⟨n, c', m', snapshot, hmoves, hend, hshows⟩ := h.finishes hs
    have hends := Run.ends_of_exit hmoves hend
    rw [hshows.output] at hends
    exact ⟨m', hends, hshows⟩
  · obtain ⟨n, c', m', line, hmoves, hfail, hshows⟩ := h.breaks hs
    exact ⟨line, m', Run.ends_of_failure hmoves hfail, hshows⟩

theorem Simulates.of_step {t : Tape.Machine} {r : Run} (h : Simulates t r.step) :
    Simulates t r := by
  refine .of_forward (fun s hs => ?_) (fun s hs => ?_) fun hs =>
    (h.endless_iff.mp hs).of_step
  · obtain ⟨m, hends, hshows⟩ := h.halts s hs
    exact ⟨m, hends.of_step, hshows⟩
  · obtain ⟨line, m, hends, hshows⟩ := h.faults s hs
    exact ⟨line, m, hends.of_step, hshows⟩

theorem tracks_start {source : String} (hdepth : depthAfter? 0 source.toList = some 0)
    {size : Int} (hsize : 0 ≤ size) (input : List Int) :
    Tracks (Tape.Machine.start size.toNat input source)
      { program := Program.ofLines (code source.toList), input, limit := none }
      { memorySize := size, state := State.fresh size.toNat } where
  balanced := hdepth
  program := rfl
  limit := rfl
  position_le := Nat.zero_le _
  pc := rfl
  input := rfl
  shown := by
    refine ⟨?_, rfl, rfl, rfl⟩
    show size = (Array.replicate size.toNat (0 : UInt8)).size
    rw [Array.size_replicate]
    omega

theorem isTooLong_of_le {a b : Int} (h : a.natAbs ≤ b.natAbs)
    (hb : Numeral.isTooLong b = false) : Numeral.isTooLong a = false := by
  unfold Numeral.isTooLong at hb ⊢
  generalize Nat.pow 10 Numeral.maxDigits = bound at hb ⊢
  rw [decide_eq_false_iff_not] at hb ⊢
  omega

theorem text_outOfRange (pointer : Int) :
    (Cause.outOfRange pointer).text = "Memory access out of range: " ++
      toString pointer := by
  unfold Cause.text
  rfl

/-- A fault for want of a cell is blamed on the program and names the pointer, if
that can be written. -/
theorem outOfRange_writable {pointer : Int} (h : Numeral.isTooLong pointer = false)
    (line : Nat) :
    (Fault.program (.outOfRange pointer) line).kind = .program ∧
    (Fault.program (.outOfRange pointer) line).message =
      "Memory access out of range: " ++ toString pointer ++ " on line " ++
        toString line := by
  have hwritable : (Cause.outOfRange pointer).isUnwritable = false := by
    rw [Cause.isUnwritable, Cause.number?, Option.any_some, h]
  constructor
  · rw [Fault.kind, hwritable, if_neg Bool.false_ne_true]
  · rw [Fault.message, hwritable, if_neg Bool.false_ne_true, text_outOfRange]
    show _ ++ (" on line " ++ toString line) = _
    rw [← String.append_assoc]

/-- The run blames its failures on the program, and their text names what `$sp`
holds. -/
def NamesPointer (r : Run) : Prop :=
  ∀ e m, r.Ends (.error e) m → ∃ (f : Fault) (line : Nat), e = .fault f ∧
    f.kind = .program ∧
    f.message = "Memory access out of range: " ++ toString m.state.registers.sp ++
      " on line " ++ toString line

/-- The pointer can be written unless the source and the tape together are longer
than any number that can be written. -/
theorem Simulates.namesPointer {source : String} {size : Int} (hsize : 0 ≤ size)
    {input : List Int} {r : Run}
    (h : Simulates (Tape.Machine.start size.toNat input source) r)
    (hshort : Numeral.isTooLong (source.length + size) = false) : NamesPointer r := by
  intro e m hends
  obtain ⟨s, line, hfaults, rfl, hshows⟩ := h.fails e m hends
  have hle := Tape.Machine.natAbs_pointer_le hfaults
  have hwritable : Numeral.isTooLong s.pointer = false :=
    isTooLong_of_le (by omega) hshort
  obtain ⟨hkind, hmessage⟩ := outOfRange_writable hwritable line
  rw [hshows.pointer]
  exact ⟨_, line, rfl, hkind, hmessage⟩

theorem simulates_start {source : String}
    (hdepth : depthAfter? 0 source.toList = some 0) {size : Int} {m : Machine}
    (hnew : Machine.new size = .ok m) (input : List Int) :
    Simulates (Tape.Machine.start size.toNat input source)
      (Run.start { assembly := Line.textOf (code source.toList), input } m) := by
  obtain ⟨hsize, rfl, hreset⟩ := new_eq_ok hnew
  have hstep :
      (Run.start { assembly := Line.textOf (code source.toList), input } _).step = _ :=
    Run.step_start hreset (assemble_code hdepth)
  refine .of_step ?_
  rw [hstep]
  exact simulates_midway (tracks_start hdepth hsize input)

/-- A balanced source compiles, and on a new machine of any size and with any
input the compiled program does what the source does on a tape of that size with
that input. -/
theorem compile_simulates {source : String} (hbalanced : isBalanced source = true) :
    ∃ c, compile source = .ok c ∧
      ∀ (size : Int) (m : Machine) (input : List Int), Machine.new size = .ok m →
        Simulates (Tape.Machine.start size.toNat input source)
          (Run.start { assembly := c.assembly, input } m) ∧
        (Numeral.isTooLong (source.length + size) = false →
          NamesPointer (Run.start { assembly := c.assembly, input } m)) := by
  have hdepth := (isBalanced_iff_depth source).mp hbalanced
  refine ⟨_, compile_of_depth hdepth, fun size m input hnew => ?_⟩
  have hsimulates := simulates_start hdepth hnew input
  exact ⟨hsimulates, hsimulates.namesPointer (new_eq_ok hnew).1⟩

/-- The program that prints its input, on a tape of one cell. -/
theorem compile_simulates_echo :
    isBalanced ",[.,]" = true ∧ ∃ c m, compile ",[.,]" = .ok c ∧
      Machine.new 1 = .ok m ∧
      Simulates (Tape.Machine.start 1 [72, 105] ",[.,]")
        (Run.start { assembly := c.assembly, input := [72, 105] } m) := by
  obtain ⟨c, hc, hruns⟩ := @compile_simulates ",[.,]" (by decide)
  exact ⟨by decide, c, _, hc, rfl, (hruns 1 _ [72, 105] rfl).1⟩

end TapeMips.Machine
