import TapeMips.Proofs.Depth
import TapeMips.Tape.Machine

/-!
# Runs of a tape machine

A tape machine comes to one of three things: it halts at the end of its source,
it faults for want of a cell, or it goes on for ever. What every character keeps
is still there at the last one (`last_of_invariant`).

The pointer may leave the tape, but not far. Whatever sends the machine back in
its source has looked at a cell before, so the pointer was on the tape then; and
going on by one character moves it by one cell at most. Hence the pointer is
never further off the tape than the source is long (`natAbs_pointer_le`).
-/

namespace TapeMips.Tape.State

theorem index?_eq_some {s : State} {i : Nat} (h : s.index? = some i) :
    0 ≤ s.pointer ∧ s.pointer < s.cells.size ∧ i = s.pointer.toNat := by
  simp only [index?] at h
  split at h
  · next hrange =>
      simp only [Bool.and_eq_true, decide_eq_true_eq, Option.some.injEq] at hrange h
      exact ⟨hrange.1, hrange.2, h.symm⟩
  · cases h

theorem cell?_eq_none_iff (s : State) : s.cell? = none ↔ s.index? = none := by
  rw [cell?]
  cases hindex : s.index? with
  | none => simp
  | some i =>
      obtain ⟨hpos, hlt, rfl⟩ := index?_eq_some hindex
      have hsize : s.pointer.toNat < s.cells.size := by omega
      simp [hsize]

theorem getElem?_of_cell? {s : State} {cell : UInt8} (h : s.cell? = some cell) :
    ∃ i, s.index? = some i ∧ s.cells[i]? = some cell := by
  rw [cell?] at h
  exact Option.bind_eq_some_iff.mp h

theorem index?_of_act?_eq_none {s : State} {a : Action} (h : s.act? a = none) :
    s.index? = none := by
  cases hindex : s.index? with
  | none => rfl
  | some i =>
      cases hcell : s.cell? with
      | none =>
          rw [(cell?_eq_none_iff s).mp hcell] at hindex
          cases hindex
      | some cell => cases a <;> simp [act?, hindex, hcell] at h

end TapeMips.Tape.State

namespace TapeMips.Tape.Machine

/-- The machine reaches the end of its source with this state. -/
def Halts (t : Machine) (s : State) : Prop := ∃ n, t.after n = .halted s

/-- The machine comes to need a cell where there is none, and has this state then. -/
def Faults (t : Machine) (s : State) : Prop := ∃ n, t.after n = .fault s

/-- The machine goes on for ever. -/
def Endless (t : Machine) : Prop := ∀ n, ∃ t', t.after n = .next t'

theorem halts_or_faults_or_endless (t : Machine) :
    (∃ s, t.Halts s) ∨ (∃ s, t.Faults s) ∨ t.Endless := by
  by_cases h : t.Endless
  · exact Or.inr (Or.inr h)
  · simp only [Endless, Classical.not_forall] at h
    obtain ⟨n, hn⟩ := h
    cases hafter : t.after n with
    | halted s => exact Or.inl ⟨s, n, hafter⟩
    | fault s => exact Or.inr (Or.inl ⟨s, n, hafter⟩)
    | next t' => exact absurd ⟨t', hafter⟩ hn

theorem Endless.next {t : Machine} (h : t.Endless) :
    ∃ t', t.step = .next t' ∧ t'.Endless := by
  cases hstep : t.step with
  | halted s =>
      obtain ⟨t', ht'⟩ := h (0 + 1)
      rw [after, hstep] at ht'
      cases ht'
  | fault s =>
      obtain ⟨t', ht'⟩ := h (0 + 1)
      rw [after, hstep] at ht'
      cases ht'
  | next t' =>
      refine ⟨t', rfl, fun n => ?_⟩
      obtain ⟨t'', ht''⟩ := h (n + 1)
      rw [after, hstep] at ht''
      exact ⟨t'', ht''⟩

/-- What every character keeps holds at the last one. -/
theorem last_of_invariant (inv : Machine → Prop)
    (hinv : ∀ t t', inv t → t.step = .next t' → inv t') {t : Machine} (h : inv t)
    {n : Nat} {e : Step} (hn : t.after n = e) (hstopped : ∀ t', e ≠ .next t') :
    ∃ t', inv t' ∧ t'.step = e := by
  induction n generalizing t with
  | zero => exact absurd hn.symm (hstopped t)
  | succ n ih =>
      rw [after] at hn
      cases hstep : t.step with
      | halted s =>
          rw [hstep] at hn
          exact ⟨t, h, hstep.trans hn⟩
      | fault s =>
          rw [hstep] at hn
          exact ⟨t, h, hstep.trans hn⟩
      | next t' =>
          rw [hstep] at hn
          exact ih (hinv t t' h hstep) hn

theorem step_of_none {t : Machine} (h : t.source[t.position]? = none) :
    t.step = .halted t.state := by
  simp [step, h]

theorem step_open {t : Machine} (h : t.source[t.position]? = some '[') :
    t.step = t.test (Source.closing t.source t.position + 1) (t.position + 1) := by
  simp [step, h, Source.ofChar?_open]

theorem step_close {t : Machine} (h : t.source[t.position]? = some ']') :
    t.step = t.test (t.position + 1) (Source.opening t.source t.position + 1) := by
  simp [step, h, Source.ofChar?_close]

theorem step_action {t : Machine} {c : Char} {a : Action}
    (h : t.source[t.position]? = some c) (hc : Command.ofChar? c = some (.act a)) :
    t.step = match t.state.act? a with
      | none => .fault t.state
      | some state => .next { t with position := t.position + 1, state } := by
  cases hact : t.state.act? a with
  | none => simp [step, h, hc, hact]
  | some state => simp [step, h, hc, hact]

/-- What an action that has gone on has done. -/
theorem next_of_action {t t' : Machine} {c : Char} {a : Action}
    (h : t.source[t.position]? = some c) (hc : Command.ofChar? c = some (.act a))
    (hstep : t.step = .next t') :
    ∃ s, t.state.act? a = some s ∧
      t' = { t with position := t.position + 1, state := s } := by
  rw [step_action h hc] at hstep
  cases hact : t.state.act? a with
  | none =>
      rw [hact] at hstep
      cases hstep
  | some s =>
      rw [hact] at hstep
      cases hstep
      exact ⟨s, rfl, rfl⟩

/-- What a test that has gone on has seen. -/
theorem next_of_test {t t' : Machine} {ifZero ifNot : Nat}
    (h : t.test ifZero ifNot = .next t') :
    ∃ cell, t.state.cell? = some cell ∧
      t' = { t with position := if cell = 0 then ifZero else ifNot } := by
  rw [test] at h
  cases hcell : t.state.cell? with
  | none =>
      rw [hcell] at h
      cases h
  | some cell =>
      rw [hcell] at h
      cases h
      exact ⟨cell, rfl, rfl⟩

theorem fault_of_test {t : Machine} {s : State} {ifZero ifNot : Nat}
    (h : t.test ifZero ifNot = .fault s) : t.state.cell? = none ∧ s = t.state := by
  rw [test] at h
  cases hcell : t.state.cell? with
  | none =>
      rw [hcell] at h
      cases h
      exact ⟨rfl, rfl⟩
  | some cell =>
      rw [hcell] at h
      cases h

theorem test_ne_halted (t : Machine) (ifZero ifNot : Nat) (s : State) :
    t.test ifZero ifNot ≠ .halted s := by
  rw [test]
  split <;> simp

theorem step_comment {t : Machine} {c : Char} (h : t.source[t.position]? = some c)
    (hc : Command.ofChar? c = none) :
    t.step = .next { t with position := t.position + 1 } := by
  simp [step, h, hc]

theorem getElem?_of_next {t t' : Machine} (h : t.step = .next t') :
    ∃ x, t.source[t.position]? = some x := by
  cases hx : t.source[t.position]? with
  | none =>
      rw [step_of_none hx] at h
      cases h
  | some x => exact ⟨x, rfl⟩

theorem getElem?_of_halted {t : Machine} {s : State} (h : t.step = .halted s) :
    t.source[t.position]? = none := by
  cases hx : t.source[t.position]? with
  | none => rfl
  | some x =>
      simp only [step, hx] at h
      split at h
      · cases h
      · split at h <;> cases h
      · exact absurd h (test_ne_halted t _ _ s)
      · exact absurd h (test_ne_halted t _ _ s)

theorem lt_of_fault {t : Machine} {s : State} (h : t.step = .fault s) :
    t.position < t.source.length ∧ s = t.state := by
  cases hx : t.source[t.position]? with
  | none =>
      rw [step_of_none hx] at h
      cases h
  | some x =>
      refine ⟨(List.getElem?_eq_some_iff.mp hx).1, ?_⟩
      simp only [step, hx] at h
      split at h
      · cases h
      · split at h <;> cases h
        rfl
      · exact (fault_of_test h).2
      · exact (fault_of_test h).2

/-- The pointer is no further off the tape than the position is from the start of
the source. -/
structure Near (source : List Char) (size : Nat) (t : Machine) : Prop where
  source_eq : t.source = source
  size_eq : t.state.cells.size = size
  left : -(t.position : Int) ≤ t.state.pointer
  right : t.state.pointer ≤ size + t.position

theorem near_start (size : Nat) (input : List Int) (source : String) :
    Near source.toList size (start size input source) := by
  refine ⟨rfl, Array.size_replicate, ?_, ?_⟩
  · show -((0 : Nat) : Int) ≤ 0
    omega
  · show (0 : Int) ≤ size + (0 : Nat)
    omega

/-- An action keeps the size of the tape and moves the pointer by one cell at most. -/
theorem act?_near {s s' : State} {a : Action} (h : s.act? a = some s') :
    s'.cells.size = s.cells.size ∧ s.pointer - 1 ≤ s'.pointer ∧
      s'.pointer ≤ s.pointer + 1 := by
  cases a <;>
    simp only [State.act?, bind, Option.bind_eq_some_iff, Option.some.injEq, pure] at h
  · subst h
    exact ⟨rfl, by show _ ≤ s.pointer + 1; omega, Int.le_refl _⟩
  · subst h
    exact ⟨rfl, Int.le_refl _, by show s.pointer - 1 ≤ _; omega⟩
  · obtain ⟨i, _, cell, _, rfl⟩ := h
    exact ⟨Array.size_setIfInBounds,
      by show _ ≤ s.pointer; omega, by show s.pointer ≤ _; omega⟩
  · obtain ⟨i, _, cell, _, rfl⟩ := h
    exact ⟨Array.size_setIfInBounds,
      by show _ ≤ s.pointer; omega, by show s.pointer ≤ _; omega⟩
  · obtain ⟨cell, _, rfl⟩ := h
    exact ⟨rfl, by show _ ≤ s.pointer; omega, by show s.pointer ≤ _; omega⟩
  · obtain ⟨i, _, rfl⟩ := h
    exact ⟨Array.size_setIfInBounds,
      by show _ ≤ s.pointer; omega, by show s.pointer ≤ _; omega⟩

/-- A test passes on the tape only, so it may go anywhere. -/
theorem Near.test {source : List Char} {size : Nat} {t t' : Machine}
    (h : Near source size t) {ifZero ifNot : Nat}
    (hstep : t.test ifZero ifNot = .next t') : Near source size t' := by
  obtain ⟨cell, hcell, rfl⟩ := next_of_test hstep
  obtain ⟨i, hindex, _⟩ := State.getElem?_of_cell? hcell
  obtain ⟨hpos, hlt, _⟩ := State.index?_eq_some hindex
  rw [h.size_eq] at hlt
  refine ⟨h.source_eq, h.size_eq, ?_, ?_⟩
  · show -(_ : Int) ≤ t.state.pointer
    omega
  · show t.state.pointer ≤ _
    omega

theorem Near.next {source : List Char} {size : Nat} {t t' : Machine}
    (h : Near source size t) (hstep : t.step = .next t') : Near source size t' := by
  have hleft := h.left
  have hright := h.right
  obtain ⟨x, hx⟩ := getElem?_of_next hstep
  cases hcommand : Command.ofChar? x with
  | none =>
      rw [step_comment hx hcommand] at hstep
      cases hstep
      refine ⟨h.source_eq, h.size_eq, ?_, ?_⟩ <;> dsimp only <;> omega
  | some k =>
      simp only [step, hx, hcommand] at hstep
      cases k with
      | act a =>
          cases hact : t.state.act? a with
          | none => simp [hact] at hstep
          | some s' =>
              simp only [hact] at hstep
              cases hstep
              obtain ⟨hsize, hlow, hhigh⟩ := act?_near hact
              refine ⟨h.source_eq, hsize.trans h.size_eq, ?_,
                ?_⟩ <;> dsimp only <;> omega
      | loopOpen => exact h.test hstep
      | loopClose => exact h.test hstep

/-- Where a machine faults, its pointer is off the tape by no more than the length
of its source. -/
theorem natAbs_pointer_le {source : String} {size : Nat} {input : List Int} {s : State}
    (h : (start size input source).Faults s) :
    s.pointer.natAbs ≤ source.length + size := by
  obtain ⟨n, hn⟩ := h
  obtain ⟨t, hnear, hstep⟩ := last_of_invariant (Near source.toList size)
    (fun _ _ => Near.next) (near_start size input source) hn (fun _ => by simp)
  obtain ⟨hlt, rfl⟩ := lt_of_fault hstep
  have hleft := hnear.left
  have hright := hnear.right
  rw [hnear.source_eq, String.length_toList] at hlt
  omega

end TapeMips.Tape.Machine
