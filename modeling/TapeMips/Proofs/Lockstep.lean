import TapeMips.Proofs.Iterations

/-!
# Two programs in lockstep

Two iterations of one program on two machines go through it side by side as long as
every instruction does the same on both sides, as far as anyone can tell. What that
means depends on what the machines and the inputs have in common, so both relations
are parameters here: `S` for the machines and `I` for what is left of the inputs. A
fault that only the first side meets may be excused; `X` says which ones. `K` and
`K'` are what else is known of the two sides, each on its own.

To be in lockstep (`Lockstep`) is a matter of single instructions. It follows that
the two sides report the same snapshots and stop in the same way however often they
are advanced, unless the first side has met an excused fault by then
(`Lockstep.advanceBy`).
-/

namespace TapeMips.Machine

open Asm

section Relations

variable (S : Machine → Machine → Prop) (I : List Int → List Int → Prop)
  (X : Fault → Prop) (K K' : Cursor → Machine → Prop)

/-- Two programs that stand at the same place. -/
structure Abreast (c : Cursor) (m : Machine) (c' : Cursor) (m' : Machine) : Prop where
  program : c'.program = c.program
  pc : c'.pc = c.pc
  steps : c'.steps = c.steps
  limit : c'.limit = c.limit
  input : I c.input c'.input
  alike : S m m'
  first : K c m
  second : K' c' m'

/-- What an instruction does on two machines is the same, or is excused on the
first one. -/
inductive SameEffect (m m' : Machine) :
    Except Fault Effect → Except Fault Effect → Prop where
  | fault (f : Fault) : SameEffect m m' (.error f) (.error f)
  | excused {f : Fault} (excuse : X f) (r : Except Fault Effect) :
      SameEffect m m' (.error f) r
  | done {ch ch' : Change} {input input' : List Int} {next : Continuation}
      (reads : I input input') (alike : S (m.change ch) (m'.change ch')) :
      SameEffect m m' (.ok ⟨ch, input, next⟩) (.ok ⟨ch', input', next⟩)

/-- Every instruction that leads on from `K` leads to `K` again. -/
def KeptByEffects : Prop :=
  ∀ (c : Cursor) (m : Machine) (i : Instruction) (ch : Change)
    (input : List Int) (pc : Nat),
    K c m → c.program.code[c.pc]? = some i → c.isSpent = false →
    effect m.memorySize c.program c.pc i c.input m.state = .ok ⟨ch, input, .goto pc⟩ →
    K (c.goto pc input) (m.change ch)

/-- Programs that stand at the same place do the same there. -/
structure Lockstep : Prop where
  pointer : ∀ {m m' : Machine}, S m m' → m'.state.registers.sp = m.state.registers.sp
  output : ∀ {m m' : Machine}, S m m' → m'.state.output = m.state.output
  effects : ∀ {c : Cursor} {m : Machine} {c' : Cursor} {m' : Machine}
    {i : Instruction}, Abreast S I K K' c m c' m' → c.program.code[c.pc]? = some i →
    SameEffect S I X m m' (effect m.memorySize c.program c.pc i c.input m.state)
      (effect m'.memorySize c.program c.pc i c'.input m'.state)
  first : KeptByEffects K
  second : KeptByEffects K'

/-- Two iterations that are about to do the same. -/
inductive Paired : Iteration → Machine → Iteration → Machine → Prop where
  | refused {job job' : Job} {m m' : Machine} {e : Failure}
      (first : job.begin m = (m, .error e)) (second : job'.begin m' = (m', .error e))
      (alike : S m m') : Paired (.waiting job) m (.waiting job') m'
  | begun {job job' : Job} {m m' : Machine} {c c' : Cursor}
      (first : job.begin m = (m, .ok c)) (second : job'.begin m' = (m', .ok c'))
      (abreast : Abreast S I K K' c m c' m') :
      Paired (.waiting job) m (.waiting job') m'
  | running {c c' : Cursor} {m m' : Machine} (abreast : Abreast S I K K' c m c' m') :
      Paired (.running c) m (.running c') m'
  | over {m m' : Machine} (alike : S m m') : Paired .over m .over m'

/-- Two advances that come to the same, unless the first one fails with an excuse. -/
inductive SameAdvance : Advance → Advance → Prop where
  | exhausted {it it' : Iteration} {m m' : Machine} (alike : S m m') :
      SameAdvance ⟨.exhausted, it, m⟩ ⟨.exhausted, it', m'⟩
  | failed {e : Failure} {it it' : Iteration} {m m' : Machine} (alike : S m m') :
      SameAdvance ⟨.failed e, it, m⟩ ⟨.failed e, it', m'⟩
  | excused {f : Fault} {it : Iteration} {m : Machine} (excuse : X f) (a : Advance) :
      SameAdvance ⟨.failed (.fault f), it, m⟩ a
  | snapshot {s : Snapshot} {it it' : Iteration} {m m' : Machine}
      (paired : Paired S I K K' it m it' m') :
      SameAdvance ⟨.snapshot s, it, m⟩ ⟨.snapshot s, it', m'⟩

/-- Two sequences of advances that come to the same. -/
structure SameProgress (q q' : Progress) : Prop where
  snapshots : q'.snapshots = q.snapshots
  stop : q'.stop = q.stop
  alike : S q.machine q'.machine

end Relations

section Lockstep

variable {S : Machine → Machine → Prop} {I : List Int → List Int → Prop}
  {X : Fault → Prop} {K K' : Cursor → Machine → Prop} {c c' : Cursor}
  {it it' : Iteration} {m m' : Machine}

theorem Abreast.isSpent (h : Abreast S I K K' c m c' m') : c'.isSpent = c.isSpent := by
  rw [Cursor.isSpent, Cursor.isSpent, h.limit, h.steps]

theorem Lockstep.snapshot (h : Lockstep S I X K K') (hm : S m m') (steps pc : Nat)
    (instruction : Option String) :
    snapshot m'.state steps pc instruction =
      snapshot m.state steps pc instruction := by
  rw [Machine.snapshot, Machine.snapshot, h.pointer hm, h.output hm]

theorem Lockstep.cursor (h : Lockstep S I X K K')
    (habreast : Abreast S I K K' c m c' m') :
    SameAdvance S I X K K' (c.advance m) (c'.advance m') := by
  have halike := habreast.alike
  have hspent' := habreast.isSpent
  have hfirst := h.first c m
  have hsecond := h.second c' m'
  rw [habreast.program, habreast.pc, hspent'] at hsecond
  rw [Cursor.advance, Cursor.advance, habreast.program, habreast.pc,
    habreast.steps, hspent']
  cases hcode : c.program.code[c.pc]? with
  | none =>
      dsimp only
      rw [h.snapshot halike]
      exact .snapshot (.over halike)
  | some i =>
      cases hspent : c.isSpent with
      | true => exact .failed halike
      | false =>
          dsimp only
          rw [if_neg Bool.false_ne_true, if_neg Bool.false_ne_true]
          have heffects := h.effects habreast hcode
          generalize heffect :
            effect m.memorySize c.program c.pc i c.input m.state = e at heffects
          generalize heffect' :
            effect m'.memorySize c.program c.pc i c'.input m'.state = e' at heffects
          cases heffects with
          | fault f => exact .failed halike
          | excused excuse => exact .excused excuse _
          | @done ch ch' input input' next reads alike =>
              have hsnapshot : ∀ steps pc instruction,
                  Machine.snapshot (m'.state.apply ch') steps pc instruction =
                    Machine.snapshot (m.state.apply ch) steps pc instruction :=
                h.snapshot alike
              cases next with
              | exit =>
                  dsimp only
                  rw [hsnapshot]
                  exact .snapshot (.over alike)
              | goto pc =>
                  have hkept :=
                    hfirst i ch input pc habreast.first hcode hspent heffect
                  have hkept' :=
                    hsecond i ch' input' pc habreast.second hcode hspent heffect'
                  rw [Cursor.goto, habreast.program, habreast.steps] at hkept'
                  dsimp only
                  rw [hsnapshot]
                  exact .snapshot (.running
                    ⟨rfl, rfl, rfl, habreast.limit, reads, alike, hkept, hkept'⟩)

theorem Paired.alike (h : Paired S I K K' it m it' m') : S m m' := by
  cases h with
  | refused _ _ alike => exact alike
  | begun _ _ abreast => exact abreast.alike
  | running abreast => exact abreast.alike
  | «over» alike => exact alike

theorem Lockstep.advance (h : Lockstep S I X K K')
    (hpaired : Paired S I K K' it m it' m') :
    SameAdvance S I X K K' (it.advance m) (it'.advance m') := by
  cases hpaired with
  | running abreast => exact h.cursor abreast
  | «over» alike => exact .exhausted alike
  | refused first second alike =>
      simp only [Iteration.advance, first, second]
      exact .failed alike
  | begun first second abreast =>
      simp only [Iteration.advance, first, second]
      exact h.cursor abreast

/-- Iterations in lockstep report the same and stop in the same way, unless the
first one stops with an excuse. -/
theorem Lockstep.advanceBy (h : Lockstep S I X K K')
    (hpaired : Paired S I K K' it m it' m') (n : Nat) :
    (∃ f, (it.advanceBy n m).stop = .failed (.fault f) ∧ X f) ∨
      SameProgress S (it.advanceBy n m) (it'.advanceBy n m') := by
  induction n generalizing it m it' m' with
  | zero => exact Or.inr ⟨rfl, rfl, hpaired.alike⟩
  | succ n ih =>
      have hadvance := h.advance hpaired
      rw [Iteration.advanceBy, Iteration.advanceBy]
      generalize it.advance m = a at hadvance
      generalize it'.advance m' = a' at hadvance
      cases hadvance with
      | exhausted alike => exact Or.inr ⟨rfl, rfl, alike⟩
      | failed alike => exact Or.inr ⟨rfl, rfl, alike⟩
      | excused excuse => exact Or.inl ⟨_, rfl, excuse⟩
      | snapshot paired =>
          rcases ih paired with hexcused | hsame
          · exact Or.inl hexcused
          · exact Or.inr ⟨congrArg (List.cons _) hsame.snapshots,
              hsame.stop, hsame.alike⟩

theorem SameProgress.eq {snapshots : List Snapshot} {stop : Stop} {q : Progress}
    (h : SameProgress S ⟨snapshots, stop, it, m⟩ q) :
    ∃ it' m', q = ⟨snapshots, stop, it', m'⟩ ∧ S m m' := by
  obtain ⟨snapshots', stop', it', m'⟩ := q
  obtain ⟨hsnapshots, hstop, halike⟩ := h
  cases hsnapshots
  cases hstop
  exact ⟨it', m', rfl, halike⟩

/-- What an iteration yields is what the iteration in lockstep with it yields. -/
theorem Lockstep.yields (h : Lockstep S I X K K')
    (hpaired : Paired S I K K' it m it' m') {snapshots : List Snapshot} {stop : Stop}
    {m₁ : Machine} (hyields : it.Yields m snapshots stop m₁) :
    (∃ f, stop = .failed (.fault f) ∧ X f) ∨
      ∃ m₂, it'.Yields m' snapshots stop m₂ ∧ S m₁ m₂ := by
  obtain ⟨hstop, n, it₁, hn⟩ := yields_iff_advanceBy.mp hyields
  have hprogress := h.advanceBy hpaired n
  rw [hn] at hprogress
  refine hprogress.imp_right fun hsame => ?_
  obtain ⟨it₂, m₂, hn', halike⟩ := hsame.eq
  exact ⟨m₂, yields_iff_advanceBy.mpr ⟨hstop, n, it₂, hn'⟩, halike⟩

/-- An excuse comes after the last snapshot, and up to there nothing is different. -/
theorem Lockstep.paused (h : Lockstep S I X K K')
    (hpaired : Paired S I K K' it m it' m') {snapshots : List Snapshot} {stop : Stop}
    {m₁ : Machine} (hyields : it.Yields m snapshots stop m₁) :
    ∃ it₂ m₂, it'.advanceBy snapshots.length m' = ⟨snapshots, .paused, it₂, m₂⟩ := by
  obtain ⟨it₁, m₁, hpaused⟩ := hyields.paused
  have hprogress := h.advanceBy hpaired snapshots.length
  rw [hpaused] at hprogress
  rcases hprogress with ⟨f, hstop, -⟩ | hsame
  · cases hstop
  · obtain ⟨it₂, m₂, hpaused', -⟩ := hsame.eq
    exact ⟨it₂, m₂, hpaused'⟩

end Lockstep

end TapeMips.Machine
