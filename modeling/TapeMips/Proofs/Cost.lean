import TapeMips.Proofs.Advances
import TapeMips.Proofs.Simulation

/-!
# What a compiled program costs

A block has as many instructions as the table of its command says (`Command.size`),
and none of them is passed over: a test that skips a loop and a test that goes back
into it both take the two instructions of their bracket. So the instructions that a
compiled program carries out are counted by the commands that its source carries
out, and two more that end the program (`Tracks.completes`).

A limit does nothing until it is spent, so a program that completes unlimited does
the same under a limit that it does not reach (`Completes.within`). A limit below
the number of its instructions is spent while there is still one to carry out, be it
the very last, and the run fails there (`Completes.exceeds`).
-/

namespace TapeMips.Tape

/-- The commands that a machine carries out in a number of characters. -/
def Machine.commands : (steps : Nat) → Machine → List Command
  | 0, _ => []
  | n + 1, m =>
    match m.step with
    | .next m' => (m.source[m.position]?.bind Command.ofChar?).toList ++ m'.commands n
    | _ => []

/-- The instructions for these commands, and the two that end the program. -/
def Machine.cost (steps : Nat) (m : Machine) : Nat :=
  ((m.commands steps).map Command.size).sum + 2

theorem Machine.cost_next {m m' : Machine} {x : Char}
    (hx : m.source[m.position]? = some x) (hstep : m.step = .next m') (n : Nat) :
    m.cost (n + 1) = Codegen.blockSize x + m'.cost n := by
  have hcommands : m.commands (n + 1) = (Command.ofChar? x).toList ++
      m'.commands n := by
    rw [commands, hstep, hx]
    rfl
  rw [cost, hcommands, List.map_append, List.sum_append, cost, Codegen.blockSize,
    Nat.add_assoc]
  cases Command.ofChar? x with
  | none => rfl
  | some k => rfl

theorem Machine.cost_halted {m : Machine} {s : State} (hstep : m.step = .halted s)
    (n : Nat) : m.cost (n + 1) = 2 := by
  rw [cost, commands, hstep]
  rfl

end TapeMips.Tape

namespace TapeMips.Machine

open Asm Source Codegen

/-- The program ends with its `n`th instruction from here. -/
inductive Completes : Nat → Cursor → Machine → Machine → Prop where
  | exit {c : Cursor} {m : Machine} {i : Instruction} {s : Snapshot}
      (code : c.program.code[c.pc]? = some i)
      (last : c.advance m = ⟨.snapshot s, .over, m⟩) : Completes 1 c m m
  | next {n : Nat} {c c' : Cursor} {m m' m'' : Machine} {s : Snapshot}
      (first : c.advance m = ⟨.snapshot s, .running c', m'⟩)
      (rest : Completes n c' m' m'') : Completes (n + 1) c m m''

theorem running_of_advance {c c' : Cursor} {m m' : Machine} {s : Snapshot}
    (h : c.advance m = ⟨.snapshot s, .running c', m'⟩) :
    (∃ i, c.program.code[c.pc]? = some i) ∧ c'.limit = c.limit ∧
      c'.steps = c.steps + 1 := by
  have hadvances := advances c m
  rw [h] at hadvances
  cases hadvances with
  | goto hcode _ _ => exact ⟨⟨_, hcode⟩, rfl, rfl⟩

theorem Completes.pending {n : Nat} {c : Cursor} {m m' : Machine}
    (h : Completes n c m m') : ∃ i, c.program.code[c.pc]? = some i := by
  cases h with
  | exit code _ => exact ⟨_, code⟩
  | next first _ => exact (running_of_advance first).1

theorem Completes.of_moves {n k : Nat} {c c' : Cursor} {m m' m'' : Machine}
    (hmoves : Moves n c m c' m') (h : Completes k c' m' m'') :
    Completes (n + k) c m m'' := by
  induction hmoves with
  | refl c m =>
      rw [Nat.zero_add]
      exact h
  | head first _ ih =>
      rw [Nat.add_right_comm]
      exact .next first (ih h)

/-- As many snapshots as instructions, and then no more. -/
theorem Completes.advanceBy {n : Nat} {c : Cursor} {m m' : Machine}
    (h : Completes n c m m') (count : Nat) :
    ((Iteration.running c).advanceBy count m).snapshots.length = min count n ∧
      ((Iteration.running c).advanceBy count m).stop =
        if count ≤ n then .paused else .exhausted := by
  induction h generalizing count with
  | exit _ last =>
      rcases count with _ | _ | count
      · exact ⟨rfl, rfl⟩
      · simp [Iteration.advanceBy, Iteration.advance, last]
      · simp [Iteration.advanceBy, Iteration.advance, last]
  | next first _ ih =>
      cases count with
      | zero => exact ⟨(Nat.zero_min _).symm, rfl⟩
      | succ count =>
          obtain ⟨hlength, hstop⟩ := ih count
          simp only [Iteration.advanceBy, Iteration.advance, first]
          refine ⟨?_, ?_⟩
          · rw [List.length_cons, hlength]
            omega
          · rw [hstop]
            simp only [Nat.add_le_add_iff_right]

theorem Completes.ends {n : Nat} {c : Cursor} {m m' : Machine}
    (h : Completes n c m m') : (Run.midway c m).Ends (.ok m'.state.output) m' := by
  induction h with
  | exit _ last => exact Run.ends_of_exit (.refl _ _) last
  | next first _ ih =>
      refine .of_step ?_
      rw [Run.step_midway first]
      exact ih

/-- The same place under a limit. -/
def Cursor.limitTo (c : Cursor) (limit : Int) : Cursor :=
  { c with limit := some limit }

def Iteration.limitTo (limit : Int) : Iteration → Iteration
  | .running c => .running (c.limitTo limit)
  | it => it

/-- An advance takes no notice of a limit that is not spent. -/
theorem advance_limitTo {c : Cursor} (hlimit : c.limit = none) {limit : Int}
    (hlt : c.steps < limit) (m : Machine) :
    (c.limitTo limit).advance m =
      { c.advance m with iteration := (c.advance m).iteration.limitTo limit } := by
  have hleft : c.isSpent = false := by rw [Cursor.isSpent, hlimit, Option.any_none]
  have hleft' : (c.limitTo limit).isSpent = false := by
    rw [Cursor.isSpent, Cursor.limitTo, Option.any_some, decide_eq_false_iff_not]
    exact Int.not_le.mpr hlt
  rw [Cursor.advance, Cursor.advance, hleft, hleft']
  cases hcode : c.program.code[c.pc]? with
  | none => simp [Cursor.limitTo, hcode, Iteration.limitTo]
  | some i =>
      cases heffect : effect m.memorySize c.program c.pc i c.input m.state with
      | error f => simp [Cursor.limitTo, hcode, heffect, Iteration.limitTo]
      | ok e =>
          cases hnext : e.next with
          | exit => simp [Cursor.limitTo, hcode, heffect, hnext, Iteration.limitTo]
          | goto pc => simp [Cursor.limitTo, hcode, heffect, hnext, Iteration.limitTo]

theorem advance_spent {c : Cursor} {i : Instruction}
    (hcode : c.program.code[c.pc]? = some i) {limit : Int} (hle : limit ≤ c.steps)
    (m : Machine) : (c.limitTo limit).advance m = ⟨.failed .stepLimit, .over, m⟩ := by
  have hspent : (c.limitTo limit).isSpent = true := by
    rw [Cursor.isSpent, Cursor.limitTo, Option.any_some, decide_eq_true_eq]
    exact hle
  have hcode' : (c.limitTo limit).program.code[(c.limitTo limit).pc]? = some i := hcode
  simp [Cursor.advance, hcode', hspent]

theorem Completes.within {n : Nat} {c : Cursor} {m m' : Machine}
    (h : Completes n c m m') (hlimit : c.limit = none) {limit : Int}
    (hle : c.steps + n ≤ limit) : Completes n (c.limitTo limit) m m' := by
  induction h with
  | @exit c m i s code last =>
      have hadvance := advance_limitTo hlimit (by omega : c.steps < limit) m
      rw [last] at hadvance
      exact .exit code hadvance
  | @next n c c' m m' m'' s first rest ih =>
      have hadvance := advance_limitTo hlimit (by omega : c.steps < limit) m
      rw [first] at hadvance
      obtain ⟨-, hlimit', hsteps⟩ := running_of_advance first
      exact .next hadvance (ih (hlimit'.trans hlimit) (by omega))

theorem Completes.exceeds {n : Nat} {c : Cursor} {m m' : Machine}
    (h : Completes n c m m') (hlimit : c.limit = none) {limit : Int}
    (hlt : limit < c.steps + n) :
    ∃ m'', (Run.midway (c.limitTo limit) m).Ends (.error .stepLimit) m'' := by
  induction h with
  | exit code _ =>
      exact ⟨_, Run.ends_of_failure (.refl _ _) (advance_spent code (by omega) _)⟩
  | @next n c c' m m' m'' s first rest ih =>
      -- The limit lets this instruction pass, or it is spent in front of it.
      rcases Int.lt_or_le c.steps limit with hleft | hspent
      · have hadvance := advance_limitTo hlimit hleft m
        rw [first] at hadvance
        obtain ⟨-, hlimit', hsteps⟩ := running_of_advance first
        obtain ⟨m₁, hends⟩ := ih (hlimit'.trans hlimit) (by omega)
        refine ⟨m₁, .of_step ?_⟩
        rw [Run.step_midway hadvance]
        exact hends
      · obtain ⟨i, hcode⟩ := (Completes.next first rest).pending
        exact ⟨m, Run.ends_of_failure (.refl _ _) (advance_spent hcode hspent m)⟩

/-- A source that halts after `n` characters has a program that completes with its
cost. -/
theorem Tracks.completes {t : Tape.Machine} {c : Cursor} {m : Machine} {s : Tape.State}
    (h : Tracks t c m) {n : Nat} (hn : t.after n = .halted s) :
    ∃ m', Completes (t.cost n) c m m' ∧ Shows s m' := by
  induction n generalizing t c m with
  | zero => cases hn
  | succ n ih =>
      rw [Tape.Machine.after] at hn
      cases hstep : t.step with
      | fault s' =>
          rw [hstep] at hn
          cases hn
      | halted s' =>
          rw [hstep] at hn
          cases hn
          obtain ⟨hat, rfl⟩ := h.standsAt_exit hstep
          obtain ⟨c', m', i, snapshot, hselect, hcode, hexit, hshows⟩ :=
            moves_programExit hat h.limit h.shown
          rw [Tape.Machine.cost_halted hstep]
          exact ⟨m', .of_moves hselect (.exit hcode hexit), hshows⟩
      | next t' =>
          rw [hstep] at hn
          obtain ⟨x, hx⟩ := Tape.Machine.getElem?_of_next hstep
          obtain ⟨c', m', hmoves, htracks⟩ := h.next hx hstep
          obtain ⟨m'', hcompletes, hshows⟩ := ih htracks hn
          rw [Tape.Machine.cost_next hx hstep]
          exact ⟨m'', .of_moves hmoves hcompletes, hshows⟩

/-- The job takes this many instructions to its end, where it returns this output:
so many snapshots, and no result but a spent limit for less. -/
structure Takes (job : Job) (m : Machine) (total : Nat) (output : String) : Prop where
  snapshots : ∀ count,
    ((Iteration.waiting job).advanceBy count m).snapshots.length = min count total
  stop : ∀ count, ((Iteration.waiting job).advanceBy count m).stop =
    if count ≤ total then .paused else .exhausted
  returns : ∃ m', (Run.start job m).Ends (.ok output) m'
  within_iff : ∀ limit : Int,
    (∃ m', (Run.start { job with limit := some limit } m).Ends (.ok output) m') ↔
      total ≤ limit
  exceeds_iff : ∀ limit : Int,
    (∃ m', (Run.start { job with limit := some limit } m).Ends
      (.error .stepLimit) m') ↔ limit < total

section Jobs

variable {size : Int} {m m' : Machine} {assembly : String} {p : Program}
  {input : List Int} {total : Nat}

theorem ends_start (hnew : Machine.new size = .ok m)
    (hassemble : assemble assembly = .ok p) {limit : Option Int}
    {result : Except Failure String}
    (h : (Run.midway { program := p, input, limit } m).Ends result m') :
    (Run.start { assembly, input, limit } m).Ends result m' := by
  obtain ⟨-, -, hreset⟩ := new_eq_ok hnew
  have hstart : (Run.start { assembly, input, limit } m).step = _ :=
    Run.step_start hreset hassemble
  refine .of_step ?_
  rw [hstart]
  exact h

/-- A job that completes without a limit takes as many instructions as that. -/
theorem Completes.takes
    (h : Completes total { program := p, input, limit := none } m m')
    (hnew : Machine.new size = .ok m) (hassemble : assemble assembly = .ok p) :
    Takes { assembly, input } m total m'.state.output := by
  have hbegin : Job.begin { assembly, input } m = _ := begin_of_new hnew hassemble
  have hadvanceBy : ∀ count,
      ((Iteration.waiting { assembly, input }).advanceBy count m).snapshots.length =
        min count total ∧
      ((Iteration.waiting { assembly, input }).advanceBy count m).stop =
        if count ≤ total then .paused else .exhausted := by
    intro count
    cases count with
    | zero => exact ⟨(Nat.zero_min _).symm, rfl⟩
    | succ count =>
        rw [advanceBy_of_begun hbegin]
        exact h.advanceBy (count + 1)
  have hreturns : ∀ limit : Int, total ≤ limit →
      (Run.start { assembly, input, limit := some limit } m).Ends
          (.ok m'.state.output) m' := by
    intro limit hle
    have hwithin := h.within rfl (show ((0 : Nat) : Int) + total ≤ limit by omega)
    exact ends_start hnew hassemble hwithin.ends
  have hfails : ∀ limit : Int, limit < total → ∃ m'',
      (Run.start { assembly, input, limit := some limit } m).Ends
          (.error .stepLimit) m'' := by
    intro limit hlt
    obtain ⟨m'', hends⟩ :=
      h.exceeds rfl (show limit < ((0 : Nat) : Int) + total by omega)
    exact ⟨m'', ends_start hnew hassemble hends⟩
  refine ⟨fun count => (hadvanceBy count).1, fun count => (hadvanceBy count).2,
    ⟨m', ends_start hnew hassemble h.ends⟩, fun limit => ⟨?_, ?_⟩,
    fun limit => ⟨?_, ?_⟩⟩
  · rintro ⟨m₁, hends⟩
    rcases Int.lt_or_le limit total with hlt | hle
    · obtain ⟨m₂, hfails⟩ := hfails limit hlt
      cases (hends.unique hfails).1
    · exact hle
  · intro hle
    exact ⟨m', hreturns limit hle⟩
  · rintro ⟨m₁, hends⟩
    rcases Int.lt_or_le limit total with hlt | hle
    · exact hlt
    · cases (hends.unique (hreturns limit hle)).1
  · intro hlt
    exact hfails limit hlt

end Jobs

/-- A balanced source compiles, and where it halts on a tape of some size with
some input, the compiled program takes exactly the instructions of the commands
that were carried out, and two. -/
theorem compile_cost {source : String} (hbalanced : isBalanced source = true) :
    ∃ c, compile source = .ok c ∧
      ∀ (size : Int) (m : Machine) (input : List Int) (n : Nat) (s : Tape.State),
        Machine.new size = .ok m →
        (Tape.Machine.start size.toNat input source).after n = .halted s →
        Takes { assembly := c.assembly, input } m
          ((Tape.Machine.start size.toNat input source).cost n) s.output := by
  have hdepth := (isBalanced_iff_depth source).mp hbalanced
  refine ⟨_, compile_of_depth hdepth, fun size m input n s hnew hhalted => ?_⟩
  obtain ⟨hsize, rfl, -⟩ := new_eq_ok hnew
  obtain ⟨m', hcompletes, hshows⟩ :=
    (tracks_start hdepth hsize input).completes hhalted
  rw [← hshows.output]
  exact hcompletes.takes hnew (assemble_code hdepth)

/-- The program that prints its input, on a tape of one cell. It reads three times
and prints twice, and tests the cell once at the opening bracket and twice at the
closing one. -/
theorem compile_cost_echo :
    isBalanced ",[.,]" = true ∧ ∃ c m s, compile ",[.,]" = .ok c ∧
      Machine.new 1 = .ok m ∧
      (Tape.Machine.start 1 [72, 105] ",[.,]").after 9 = .halted s ∧
      (Tape.Machine.start 1 [72, 105] ",[.,]").cost 9 = 3 * 5 + 2 * 3 + 2 ∧
      Takes { assembly := c.assembly, input := [72, 105] } m
        (3 * 5 + 2 * 3 + 2) s.output := by
  obtain ⟨c, hc, htakes⟩ := @compile_cost ",[.,]" (by decide)
  have hhalted : (Tape.Machine.start 1 [72, 105] ",[.,]").after 9 =
      .halted { cells := #[0], output := "Hi" } := by decide +kernel
  have hcost : (Tape.Machine.start 1 [72, 105] ",[.,]").cost 9 =
      3 * 5 + 2 * 3 + 2 := by
    decide +kernel
  refine ⟨by decide, c, _, _, hc, rfl, hhalted, hcost, ?_⟩
  rw [← hcost]
  exact htakes 1 _ [72, 105] 9 _ rfl hhalted

end TapeMips.Machine
