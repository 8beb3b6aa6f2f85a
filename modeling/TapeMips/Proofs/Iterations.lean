import TapeMips.Proofs.Advances

/-!
# Iterations to their end

`Yields` follows an iteration that nothing interrupts from where it stands to its
end: the snapshots up to there, the way it stops, and the machine it leaves. There
is at most one such account of an iteration, and none if it never ends. One that
pauses on the way has reported the beginning of it (`Yields.of_paused`).

A run sees the way its iteration stops, and the output if it did not fail. Once it
has begun it takes a step for every advance, so it has a result exactly if its
iteration comes to an end, and it leaves the same machine (`Run.ends_iff_yields`).
-/

namespace TapeMips.Machine

open Asm

/-- An iteration that nothing interrupts: the snapshots it yields, how it stops,
and the machine it leaves. -/
inductive Iteration.Yields :
    Iteration → Machine → List Snapshot → Stop → Machine → Prop where
  | exhausted {it it' : Iteration} {m m' : Machine}
      (last : it.advance m = ⟨.exhausted, it', m'⟩) : Yields it m [] .exhausted m'
  | failed {it it' : Iteration} {m m' : Machine} {e : Failure}
      (last : it.advance m = ⟨.failed e, it', m'⟩) : Yields it m [] (.failed e) m'
  | snapshot {it it' : Iteration} {m m' m'' : Machine} {s : Snapshot}
      {snapshots : List Snapshot} {stop : Stop}
      (first : it.advance m = ⟨.snapshot s, it', m'⟩)
      (rest : Yields it' m' snapshots stop m'') : Yields it m (s :: snapshots) stop m''

theorem advance_ne_exhausted (c : Cursor) (m : Machine) :
    (c.advance m).turn ≠ .exhausted := by
  have h := advances c m
  generalize c.advance m = a at h
  cases h <;> exact fun heq => nomatch heq

section Yields

variable {it it' : Iteration} {m m' m'' : Machine} {snapshots : List Snapshot}
  {stop : Stop}

theorem advanceBy_snapshot {s : Snapshot} (h : it.advance m = ⟨.snapshot s, it', m'⟩)
    (n : Nat) :
    it.advanceBy (n + 1) m =
      { it'.advanceBy n m' with
        snapshots := s :: (it'.advanceBy n m').snapshots } := by
  simp only [Iteration.advanceBy, h]

theorem yields_over (m : Machine) : Iteration.over.Yields m [] .exhausted m :=
  .exhausted rfl

theorem yields_last {s : Snapshot} (h : it.advance m = ⟨.snapshot s, .over, m'⟩) :
    it.Yields m [s] .exhausted m' :=
  .snapshot h (yields_over m')

/-- What an iteration yields begins with what its next advance reports. -/
theorem Iteration.Yields.inversion (h : it.Yields m snapshots stop m'') :
    match it.advance m with
    | ⟨.exhausted, _, m'⟩ => snapshots = [] ∧ stop = .exhausted ∧ m'' = m'
    | ⟨.failed e, _, m'⟩ => snapshots = [] ∧ stop = .failed e ∧ m'' = m'
    | ⟨.snapshot s, it', m'⟩ =>
        ∃ rest, snapshots = s :: rest ∧ it'.Yields m' rest stop m'' := by
  cases h with
  | exhausted last =>
      rw [last]
      exact ⟨rfl, rfl, rfl⟩
  | failed last =>
      rw [last]
      exact ⟨rfl, rfl, rfl⟩
  | snapshot first rest =>
      rw [first]
      exact ⟨_, rfl, rest⟩

theorem Iteration.Yields.unique {snapshots' : List Snapshot} {stop' : Stop}
    {m₁ m₂ : Machine} (h : it.Yields m snapshots stop m₁)
    (h' : it.Yields m snapshots' stop' m₂) :
    snapshots = snapshots' ∧ stop = stop' ∧ m₁ = m₂ := by
  have hinversion := h'.inversion
  induction h generalizing snapshots' with
  | exhausted last =>
      rw [last] at hinversion
      obtain ⟨rfl, rfl, rfl⟩ := hinversion
      exact ⟨rfl, rfl, rfl⟩
  | failed last =>
      rw [last] at hinversion
      obtain ⟨rfl, rfl, rfl⟩ := hinversion
      exact ⟨rfl, rfl, rfl⟩
  | snapshot first _ ih =>
      rw [first] at hinversion
      obtain ⟨rest, rfl, hrest⟩ := hinversion
      obtain ⟨rfl, rfl, rfl⟩ := ih hrest hrest.inversion
      exact ⟨rfl, rfl, rfl⟩

/-- What an iteration yields begins with what it has reported when it pauses. -/
theorem Iteration.Yields.of_paused {n : Nat} {part : List Snapshot}
    (hpart : it.advanceBy n m = ⟨part, .paused, it', m'⟩)
    (h : it.Yields m snapshots stop m'') :
    ∃ rest, snapshots = part ++ rest ∧ it'.Yields m' rest stop m'' := by
  induction n generalizing it m part snapshots with
  | zero =>
      cases hpart
      exact ⟨snapshots, rfl, h⟩
  | succ n ih =>
      cases h with
      | exhausted last => simp [Iteration.advanceBy, last] at hpart
      | failed last => simp [Iteration.advanceBy, last] at hpart
      | @snapshot _ it₁ _ m₁ _ s following _ first following_yields =>
          rw [advanceBy_snapshot first] at hpart
          rcases hrest : it₁.advanceBy n m₁ with ⟨part', stop', it₂, m₂⟩
          rw [hrest] at hpart
          cases hpart
          obtain ⟨rest, rfl, hyields⟩ := ih hrest following_yields
          exact ⟨rest, rfl, hyields⟩

/-- What an iteration yields is what it reports if it is advanced until it stops. -/
theorem yields_iff_advanceBy :
    it.Yields m snapshots stop m'' ↔
      stop ≠ .paused ∧ ∃ n it', it.advanceBy n m = ⟨snapshots, stop, it', m''⟩ := by
  constructor
  · intro h
    induction h with
    | exhausted last =>
        exact ⟨Stop.noConfusion, 1, _, by simp only [Iteration.advanceBy, last]; rfl⟩
    | failed last =>
        exact ⟨Stop.noConfusion, 1, _, by simp only [Iteration.advanceBy, last]; rfl⟩
    | snapshot first _ ih =>
        obtain ⟨hstop, n, it', hn⟩ := ih
        refine ⟨hstop, n + 1, it', ?_⟩
        rw [advanceBy_snapshot first, hn]
  · rintro ⟨hstop, n, it', hn⟩
    induction n generalizing it m snapshots with
    | zero =>
        cases hn
        exact absurd rfl hstop
    | succ n ih =>
        rcases hfirst : it.advance m with ⟨turn, it₁, m₁⟩
        cases turn with
        | exhausted =>
            simp only [Iteration.advanceBy, hfirst] at hn
            cases hn
            exact .exhausted hfirst
        | failed e =>
            simp only [Iteration.advanceBy, hfirst] at hn
            cases hn
            exact .failed hfirst
        | snapshot s =>
            rw [advanceBy_snapshot hfirst] at hn
            rcases hrest : it₁.advanceBy n m₁ with ⟨rest, stop', it₂, m₂⟩
            rw [hrest] at hn
            cases hn
            exact .snapshot hfirst (ih hrest)

/-- An iteration can be paused behind the last snapshot that it yields. -/
theorem Iteration.Yields.paused (h : it.Yields m snapshots stop m'') :
    ∃ it' m', it.advanceBy snapshots.length m = ⟨snapshots, .paused, it', m'⟩ := by
  induction h with
  | exhausted => exact ⟨_, _, rfl⟩
  | failed => exact ⟨_, _, rfl⟩
  | snapshot first _ ih =>
      obtain ⟨it', m', hpaused⟩ := ih
      refine ⟨it', m', ?_⟩
      rw [List.length_cons, advanceBy_snapshot first, hpaused]

theorem yields_of_refused {job : Job} {e : Failure}
    (hbegin : job.begin m = (m', .error e)) :
    (Iteration.waiting job).Yields m [] (.failed e) m' := by
  have hadvance : (Iteration.waiting job).advance m = ⟨.failed e, .over, m'⟩ := by
    simp only [Iteration.advance, hbegin]
  exact .failed hadvance

/-- All that an iteration yields is decided by its next advance. -/
theorem Iteration.Yields.congr {it₁ it₂ : Iteration} {m₁ m₂ : Machine}
    (h : it₁.advance m₁ = it₂.advance m₂) (hyields : it₁.Yields m₁ snapshots stop m') :
    it₂.Yields m₂ snapshots stop m' := by
  cases hyields with
  | exhausted last => exact .exhausted (h.symm.trans last)
  | failed last => exact .failed (h.symm.trans last)
  | snapshot first rest => exact .snapshot (h.symm.trans first) rest

/-- From its first advance on an iteration that has begun is one that runs. -/
theorem yields_of_begun {job : Job} {c : Cursor} (hbegin : job.begin m = (m', .ok c)) :
    (Iteration.waiting job).Yields m snapshots stop m'' ↔
      (Iteration.running c).Yields m' snapshots stop m'' := by
  have hadvance : (Iteration.waiting job).advance m =
      (Iteration.running c).advance m' := by
    simp only [Iteration.advance, hbegin]
  exact ⟨fun h => h.congr hadvance, fun h => h.congr hadvance.symm⟩

end Yields

/-- The snapshot shows this state. -/
structure Snapshot.TakenOf (state : State) (s : Snapshot) : Prop where
  pointer : s.pointer = state.registers.sp
  output : s.output = state.output

theorem snapshot_takenOf (state : State) (step pc : Nat)
    (instruction : Option String) :
    (snapshot state step pc instruction).TakenOf state :=
  ⟨rfl, rfl⟩

/-- Once an iteration has begun, the last snapshot shows the machine, however the
iteration has stopped; `before` is the last one that was taken earlier. -/
theorem takenOf_advanceBy {it : Iteration} (hbegun : it.HasBegun) {m : Machine}
    {before : Snapshot} (h : before.TakenOf m.state) (n : Nat) :
    ((it.advanceBy n m).snapshots.getLastD before).TakenOf
      (it.advanceBy n m).machine.state := by
  induction n generalizing it m before with
  | zero => exact h
  | succ n ih =>
      cases it with
      | waiting job => exact absurd hbegun id
      | «over» => exact h
      | running c =>
          have hadvances := advances c m
          have hbegun' := hasBegun_advance c m
          rw [Iteration.advanceBy, Iteration.advance]
          generalize c.advance m = a at hadvances hbegun'
          cases hadvances with
          | spent => exact h
          | fault => exact h
          | finished =>
              rw [List.getLastD_cons]
              exact ih hbegun' (snapshot_takenOf _ _ _ _)
          | exit =>
              rw [List.getLastD_cons]
              exact ih hbegun' (snapshot_takenOf _ _ _ _)
          | goto =>
              rw [List.getLastD_cons]
              exact ih hbegun' (snapshot_takenOf _ _ _ _)

/-- What a run makes of the way its iteration has stopped, on the machine it has
left. -/
def Stop.result? (m : Machine) : Stop → Option (Except Failure String)
  | .paused => none
  | .exhausted => some (.ok m.state.output)
  | .failed e => some (.error e)

theorem Iteration.Yields.exists_result {it : Iteration} {m m' : Machine}
    {snapshots : List Snapshot} {stop : Stop} (h : it.Yields m snapshots stop m') :
    ∃ result, stop.result? m' = some result := by
  induction h with
  | exhausted _ => exact ⟨_, rfl⟩
  | failed _ => exact ⟨_, rfl⟩
  | snapshot _ _ ih => exact ih

namespace Run

theorem ends_step_iff {r : Run} {result : Except Failure String} {m : Machine} :
    r.step.Ends result m ↔ r.Ends result m := by
  constructor
  · exact Ends.of_step
  · rintro ⟨n, houtcome, hmachine⟩
    have hstay := outcome_mono (Nat.le_succ n) houtcome
    rw [carryOn_succ] at hstay
    exact ⟨n, by rw [hstay]; exact houtcome, by rw [hstay]; exact hmachine⟩

theorem ends_of_settled {r : Run} {result : Except Failure String}
    (h : r.outcome = some result) : r.Ends result r.machine :=
  ⟨0, h, rfl⟩

section Steps

variable {r : Run} {c : Cursor} {it' : Iteration} {m' : Machine}

theorem step_snapshot {s : Snapshot} (houtcome : r.outcome = none)
    (hit : r.iteration = .running c)
    (h : c.advance r.machine = ⟨.snapshot s, it', m'⟩) :
    r.step = { r with iteration := it', machine := m', trace := r.note c } := by
  simp only [step, houtcome, hit, h]

theorem step_failed {e : Failure} (houtcome : r.outcome = none)
    (hit : r.iteration = .running c) (h : c.advance r.machine = ⟨.failed e, it', m'⟩) :
    r.step = { r with
      iteration := it', machine := m', trace := r.note c, outcome :=
  some (.error e) } := by
  simp only [step, houtcome, hit, h]

end Steps

/-! Once it has begun, a run takes one step for every advance, and one more to
notice the end. So both directions are inductions that go along with the
iteration, and beginning is dealt with after them. -/

theorem ends_of_begun {it : Iteration} {m m' : Machine} {snapshots : List Snapshot}
    {stop : Stop} (h : it.Yields m snapshots stop m') {result : Except Failure String}
    (hresult : stop.result? m' = some result) {r : Run} (houtcome : r.outcome = none)
    (hit : r.iteration = it) (hm : r.machine = m) (hbegun : it.HasBegun) :
    r.Ends result m' := by
  rw [← ends_step_iff]
  induction h generalizing r with
  | @exhausted it it' m m' last =>
      cases it with
      | waiting job => exact absurd hbegun id
      | running c =>
          exact absurd (congrArg Advance.turn last) (advance_ne_exhausted c m)
      | «over» =>
          cases last
          cases hresult
          rw [step_over houtcome hit, ← hm]
          exact ends_of_settled rfl
  | @failed it it' m m' e last =>
      cases it with
      | waiting job => exact absurd hbegun id
      | «over» => cases last
      | running c =>
          have hadvance : c.advance r.machine = ⟨.failed e, it', m'⟩ := by
            rw [hm]; exact last
          cases hresult
          rw [step_failed houtcome hit hadvance]
          exact ends_of_settled rfl
  | @snapshot it it' m m' m'' s snapshots stop first rest ih =>
      cases it with
      | waiting job => exact absurd hbegun id
      | «over» => cases first
      | running c =>
          have hadvance : c.advance r.machine = ⟨.snapshot s, it', m'⟩ := by
            rw [hm]; exact first
          have hbegun' := hasBegun_advance c r.machine
          rw [hadvance] at hbegun'
          rw [step_snapshot houtcome hit hadvance]
          exact ends_step_iff.mp (ih hresult houtcome rfl rfl hbegun')

theorem yields_of_ends_begun {r : Run} (houtcome : r.outcome = none)
    (hbegun : r.iteration.HasBegun) {result : Except Failure String} {m : Machine}
    (h : r.Ends result m) :
    ∃ snapshots stop, r.iteration.Yields r.machine snapshots stop m ∧
      stop.result? m = some result := by
  obtain ⟨n, hsettled, rfl⟩ := h
  induction n generalizing r with
  | zero =>
      rw [carryOn, houtcome] at hsettled
      cases hsettled
  | succ n ih =>
      rw [carryOn_succ] at hsettled ⊢
      cases hit : r.iteration with
      | waiting job =>
          rw [hit] at hbegun
          exact absurd hbegun id
      | «over» =>
          rw [step_over houtcome hit, carryOn_of_isSome rfl] at hsettled ⊢
          exact ⟨[], .exhausted, yields_over _, hsettled⟩
      | running c =>
          rcases hadvance : c.advance r.machine with ⟨turn, it', m'⟩
          cases turn with
          | exhausted =>
              exact absurd (congrArg Advance.turn hadvance) (advance_ne_exhausted c _)
          | failed e =>
              rw [step_failed houtcome hit hadvance,
                carryOn_of_isSome rfl] at hsettled ⊢
              exact ⟨[], .failed e, .failed hadvance, hsettled⟩
          | snapshot s =>
              have hbegun' := hasBegun_advance c r.machine
              rw [hadvance] at hbegun'
              have hstep := step_snapshot houtcome hit hadvance
              obtain ⟨snapshots, stop, hyields, hresult⟩ :=
                ih (by rw [hstep]; exact houtcome)
                  (by rw [hstep]; exact hbegun') hsettled
              rw [hstep] at hyields hresult ⊢
              exact ⟨s :: snapshots, stop, .snapshot hadvance hyields, hresult⟩

theorem ends_iff_of_begun {r : Run} (houtcome : r.outcome = none)
    (hbegun : r.iteration.HasBegun) {result : Except Failure String} {m : Machine} :
    r.Ends result m ↔ ∃ snapshots stop, r.iteration.Yields r.machine snapshots stop m ∧
      stop.result? m = some result := by
  constructor
  · exact yields_of_ends_begun houtcome hbegun
  · rintro ⟨snapshots, stop, hyields, hresult⟩
    exact ends_of_begun hyields hresult houtcome rfl rfl hbegun

/-- A run has a result exactly if its iteration comes to an end. -/
theorem ends_iff_yields {r : Run} (houtcome : r.outcome = none)
    {result : Except Failure String} {m : Machine} :
    r.Ends result m ↔ ∃ snapshots stop, r.iteration.Yields r.machine snapshots stop m ∧
      stop.result? m = some result := by
  cases hit : r.iteration with
  | running c => rw [ends_iff_of_begun houtcome (by rw [hit]; trivial), hit]
  | «over» => rw [ends_iff_of_begun houtcome (by rw [hit]; trivial), hit]
  | waiting job =>
      rw [← ends_step_iff]
      rcases hbegin : job.begin r.machine with ⟨m', e | c⟩
      · have hends : r.step.Ends (.error e) m' := by
          rw [step_waiting_error houtcome hit hbegin]
          exact ends_of_settled rfl
        constructor
        · intro h
          obtain ⟨rfl, rfl⟩ := h.unique hends
          exact ⟨[], .failed e, yields_of_refused hbegin, rfl⟩
        · rintro ⟨snapshots, stop, hyields, hresult⟩
          obtain ⟨rfl, rfl, rfl⟩ := hyields.unique (yields_of_refused hbegin)
          cases hresult
          exact hends
      · simp only [yields_of_begun hbegin]
        rw [step_waiting_ok houtcome hit hbegin]
        exact ends_iff_of_begun
          (r := { r with iteration := .running c, machine := m' }) houtcome trivial

end Run

end TapeMips.Machine
