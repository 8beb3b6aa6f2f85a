import TapeMips.Proofs.Cost
import TapeMips.Proofs.Iterations

/-!
# What a limit does

A limit is looked at in front of every instruction and nowhere else. So a program
under a limit keeps step with the same program without one until the limit is
spent, and what happens then depends on where the program stands. At its end there
is no instruction to forbid, and it ends as it would have; in front of another
instruction it fails, and it does not matter whether that instruction would have
been carried out, would have ended the program or would have failed itself.

That is the whole difference between the ways to stop (`Stop.Fits`). A program that
ends needs as many instructions as it completes. One that fails needs one more, as
the instruction that fails is not completed and still has to be allowed.

`limited` is the induction, on the instructions that are left: either the program
stops within them, limit or not, or it has completed all of them, stands in front
of another one, and fails there under the limit.
-/

namespace TapeMips.Machine

open Asm

/-- The instructions that these snapshots report. -/
def executed (snapshots : List Snapshot) : Nat :=
  snapshots.countP (·.instruction.isSome)

/-- Whether what stops like this after `total` instructions does so where `n` are
allowed. -/
def Stop.Fits (n total : Nat) : Stop → Prop
  | .paused => False
  | .exhausted => total ≤ n
  | .failed _ => total < n

theorem Stop.Fits.le {stop : Stop} {n total : Nat} (h : stop.Fits n total) :
    total ≤ n := by
  cases stop with
  | paused => exact absurd h id
  | exhausted => exact h
  | failed e => exact Nat.le_of_lt h

theorem Stop.Fits.succ {stop : Stop} {n total : Nat} (h : stop.Fits n total) :
    stop.Fits (n + 1) (total + 1) := by
  cases stop with
  | paused => exact h
  | exhausted => exact Nat.succ_le_succ h
  | failed e => exact Nat.succ_lt_succ h

/-- What becomes of a program that has no limit of its own under a limit that
leaves it `n` instructions. -/
inductive Limited (limit : Int) (n : Nat) (c : Cursor) (m : Machine) : Prop where
  | within {snapshots : List Snapshot} {stop : Stop} {m' : Machine}
      (free : (Iteration.running c).Yields m snapshots stop m')
      (bound : (Iteration.running (c.limitTo limit)).Yields m snapshots stop m')
      (fits : stop.Fits n (executed snapshots))
  | cut {snapshots : List Snapshot} {c' : Cursor} {m' : Machine} {i : Instruction}
      (free : (Iteration.running c).advanceBy n m =
        ⟨snapshots, .paused, .running c', m'⟩)
      (bound : (Iteration.running (c.limitTo limit)).Yields m snapshots
        (.failed .stepLimit) m')
      (length : snapshots.length = n) (total : executed snapshots = n)
      (code : c'.program.code[c'.pc]? = some i)

theorem advance_finished {c : Cursor} (hcode : c.program.code[c.pc]? = none)
    (m : Machine) :
    c.advance m = ⟨.snapshot (snapshot m.state c.steps c.pc none), .over, m⟩ := by
  simp only [Cursor.advance, hcode]

theorem limited_of_finished {c : Cursor} (hcode : c.program.code[c.pc]? = none)
    (limit : Int) (n : Nat) (m : Machine) : Limited limit n c m := by
  have hcode' : (c.limitTo limit).program.code[(c.limitTo limit).pc]? = none := hcode
  exact .within (yields_last (advance_finished hcode m))
    (yields_last (advance_finished hcode' m)) (Nat.zero_le n)

theorem Limited.next {limit : Int} {n : Nat} {c c' : Cursor} {m m' : Machine}
    {s : Snapshot} (hfree : c.advance m = ⟨.snapshot s, .running c', m'⟩)
    (hbound : (c.limitTo limit).advance m =
      ⟨.snapshot s, .running (c'.limitTo limit), m'⟩)
    (hs : s.instruction.isSome = true) (h : Limited limit n c' m') :
    Limited limit (n + 1) c m := by
  have hexecuted : ∀ rest, executed (s :: rest) = executed rest + 1 :=
    fun rest => List.countP_cons_of_pos hs
  cases h with
  | within free bound fits =>
      refine .within (.snapshot hfree free) (.snapshot hbound bound) ?_
      rw [hexecuted]
      exact fits.succ
  | @cut rest c₁ m₁ i free bound length total code =>
      have hfirst : (Iteration.running c).advance m = ⟨.snapshot s, .running c', m'⟩ :=
        hfree
      have hpart : (Iteration.running c).advanceBy (n + 1) m =
          ⟨s :: rest, .paused, .running c₁, m₁⟩ := by
        rw [advanceBy_snapshot hfirst, free]
      refine .cut hpart (.snapshot hbound bound) ?_ ?_ code
      · rw [List.length_cons, length]
      · rw [hexecuted, total]

theorem limited {c : Cursor} (hlimit : c.limit = none) {limit : Int} {n : Nat}
    (hn : (limit - c.steps).toNat = n) (m : Machine) : Limited limit n c m := by
  induction n generalizing c m with
  | zero =>
      cases hcode : c.program.code[c.pc]? with
      | none => exact limited_of_finished hcode limit 0 m
      | some i =>
          have hspent := advance_spent hcode (by omega : limit ≤ c.steps) m
          exact .cut rfl (.failed hspent) rfl rfl hcode
  | succ n ih =>
      have hbound := advance_limitTo hlimit (by omega : c.steps < limit) m
      have hadvances := advances c m
      generalize hfree : c.advance m = a at hadvances hbound
      cases hadvances with
      | finished code => exact limited_of_finished code limit _ m
      | spent _ spent => simp [Cursor.isSpent, hlimit] at spent
      | fault _ _ _ =>
          exact .within (.failed hfree) (.failed hbound) (Nat.zero_lt_succ n)
      | exit _ _ _ =>
          exact .within (yields_last hfree) (yields_last hbound)
            (Nat.succ_le_succ (Nat.zero_le n))
      | @goto i ch input pc _ _ _ =>
          have hsteps : (c.goto pc input).steps = c.steps + 1 := rfl
          exact .next hfree hbound rfl (ih (c := c.goto pc input) hlimit (by omega) _)

/-- A program in front of an instruction, after `n` of them, does not stop within
`n`. -/
theorem not_fits_of_pending {c : Cursor} {m m' : Machine} {i : Instruction}
    {rest : List Snapshot} {stop : Stop} (hcode : c.program.code[c.pc]? = some i)
    (h : (Iteration.running c).Yields m rest stop m') (n : Nat) :
    ¬ stop.Fits n (n + executed rest) := by
  intro hfits
  cases h with
  | exhausted last => exact advance_ne_exhausted c m (congrArg Advance.turn last)
  | failed last => exact Nat.lt_irrefl n hfits
  | @snapshot _ it' _ m₁ _ s rest _ first _ =>
      have hs : s.instruction.isSome = true := by
        have hadvances := advances c m
        have hfirst : c.advance m = ⟨.snapshot s, it', m₁⟩ := first
        rw [hfirst] at hadvances
        cases hadvances with
        | finished code =>
            rw [hcode] at code
            cases code
        | exit => rfl
        | goto => rfl
      have hexecuted : executed (s :: rest) = executed rest + 1 :=
        List.countP_cons_of_pos hs
      have hle := hfits.le
      omega

theorem Limited.bound_of_fits {limit : Int} {n : Nat} {c : Cursor} {m m' : Machine}
    (h : Limited limit n c m) {snapshots : List Snapshot} {stop : Stop}
    (hfree : (Iteration.running c).Yields m snapshots stop m')
    (hfits : stop.Fits n (executed snapshots)) :
    (Iteration.running (c.limitTo limit)).Yields m snapshots stop m' := by
  cases h with
  | within free bound _ =>
      obtain ⟨rfl, rfl, rfl⟩ := hfree.unique free
      exact bound
  | cut free _ _ total code =>
      obtain ⟨rest, rfl, hrest⟩ := hfree.of_paused free
      rw [executed, List.countP_append, ← executed, ← executed, total] at hfits
      exact absurd hfits (not_fits_of_pending code hrest n)

theorem Limited.free_of_exhausted {limit : Int} {n : Nat} {c : Cursor} {m m' : Machine}
    (h : Limited limit n c m) {snapshots : List Snapshot}
    (hbound : (Iteration.running (c.limitTo limit)).Yields m snapshots .exhausted m') :
    (Iteration.running c).Yields m snapshots .exhausted m' ∧
      executed snapshots ≤ n := by
  cases h with
  | within free bound fits =>
      obtain ⟨rfl, rfl, rfl⟩ := hbound.unique bound
      exact ⟨free, fits⟩
  | cut _ bound _ _ _ =>
      obtain ⟨-, hstop, -⟩ := hbound.unique bound
      cases hstop

/-- The job where it may carry out no more than so many instructions. -/
def Job.limitTo (job : Job) (limit : Int) : Job := { job with limit := some limit }

/-- A limit on a job, which has none of its own, does nothing but cut it off. -/
structure Truncates (job : Job) (m : Machine) (limit : Int) : Prop where
  /-- A job that stops within the limit does the same under it. -/
  within : ∀ snapshots stop m', (Iteration.waiting job).Yields m snapshots stop m' →
    stop.Fits limit.toNat (executed snapshots) →
    (Iteration.waiting (job.limitTo limit)).Yields m snapshots stop m' ∧
      ∀ traced, ∃ result, stop.result? m' = some result ∧
        (Run.start job m traced).Ends result m' ∧
        (Run.start (job.limitTo limit) m traced).Ends result m'
  /-- Any other job fails as soon as it has carried out all the instructions it may. -/
  cut : (∀ snapshots stop m', (Iteration.waiting job).Yields m snapshots stop m' →
      ¬ stop.Fits limit.toNat (executed snapshots)) →
    ∃ p, (Iteration.waiting job).advanceBy limit.toNat m = p ∧ p.stop = .paused ∧
      p.snapshots.length = limit.toNat ∧ executed p.snapshots = limit.toNat ∧
      (Iteration.waiting (job.limitTo limit)).Yields m p.snapshots
        (.failed .stepLimit) p.machine ∧
      ∀ traced, (Run.start (job.limitTo limit) m traced).Ends
        (.error .stepLimit) p.machine
  /-- A job that ends under the limit does the same under a larger one and under
  none. -/
  lifted : ∀ snapshots m',
    (Iteration.waiting (job.limitTo limit)).Yields m snapshots .exhausted m' →
    (Iteration.waiting job).Yields m snapshots .exhausted m' ∧
      ∀ larger, limit ≤ larger →
        (Iteration.waiting (job.limitTo larger)).Yields m snapshots .exhausted m'
  lifted_run : ∀ traced output m', (Run.start (job.limitTo limit) m traced).Ends
    (.ok output) m' → (Run.start job m traced).Ends (.ok output) m' ∧
      ∀ larger, limit ≤ larger →
        (Run.start (job.limitTo larger) m traced).Ends (.ok output) m'

section Jobs

variable {size limit : Int} {m m' : Machine} {job : Job} {p : Program}
  {snapshots : List Snapshot} {stop : Stop}

theorem yields_limitTo (hnew : Machine.new size = .ok m)
    (hassemble : assemble job.assembly = .ok p) (limit : Int) :
    (Iteration.waiting (job.limitTo limit)).Yields m snapshots stop m' ↔
      (Iteration.running ((job.cursor p).limitTo limit)).Yields m snapshots
        stop m' := by
  have hbegin : (job.limitTo limit).begin m =
      (m, .ok ((job.cursor p).limitTo limit)) :=
    begin_of_new hnew hassemble
  exact yields_of_begun hbegin

theorem limited_cursor (hlimit : job.limit = none) (p : Program) (limit : Int)
    (m : Machine) : Limited limit limit.toNat (job.cursor p) m := by
  have hn : (limit - (job.cursor p).steps).toNat = limit.toNat := by
    show (limit - 0).toNat = limit.toNat
    rw [Int.sub_zero]
  exact limited hlimit hn m

theorem yields_within (hnew : Machine.new size = .ok m)
    (hassemble : assemble job.assembly = .ok p) (hlimit : job.limit = none)
    (h : (Iteration.waiting job).Yields m snapshots stop m')
    (hfits : stop.Fits limit.toNat (executed snapshots)) :
    (Iteration.waiting (job.limitTo limit)).Yields m snapshots stop m' := by
  have hfree := (yields_of_begun (begin_of_new hnew hassemble)).mp h
  have hbound := (limited_cursor hlimit p limit m).bound_of_fits hfree hfits
  exact (yields_limitTo hnew hassemble limit).mpr hbound

/-- An iteration that ends under a limit ends the same way without one, and within
it. -/
theorem yields_without (hnew : Machine.new size = .ok m)
    (hassemble : assemble job.assembly = .ok p) (hlimit : job.limit = none)
    (h : (Iteration.waiting (job.limitTo limit)).Yields m snapshots .exhausted m') :
    (Iteration.waiting job).Yields m snapshots .exhausted m' ∧
      executed snapshots ≤ limit.toNat := by
  have hbound := (yields_limitTo hnew hassemble limit).mp h
  obtain ⟨hfree, hle⟩ := (limited_cursor hlimit p limit m).free_of_exhausted hbound
  exact ⟨(yields_of_begun (begin_of_new hnew hassemble)).mpr hfree, hle⟩

theorem yields_lifted (hnew : Machine.new size = .ok m)
    (hassemble : assemble job.assembly = .ok p) (hlimit : job.limit = none)
    (h : (Iteration.waiting (job.limitTo limit)).Yields m snapshots .exhausted m')
    {larger : Int} (hle : limit ≤ larger) :
    (Iteration.waiting (job.limitTo larger)).Yields m snapshots .exhausted m' := by
  obtain ⟨hfree, htotal⟩ := yields_without hnew hassemble hlimit h
  have hfits : Stop.exhausted.Fits larger.toNat (executed snapshots) :=
    Nat.le_trans htotal (Int.toNat_le_toNat hle)
  exact yields_within hnew hassemble hlimit hfree hfits

/-- A program of a new machine that cannot stop within the limit is cut off by it. -/
theorem cut_of_not_fits (hnew : Machine.new size = .ok m)
    (hassemble : assemble job.assembly = .ok p) (hlimit : job.limit = none)
    (h : ∀ snapshots stop m', (Iteration.waiting job).Yields m snapshots stop m' →
      ¬ stop.Fits limit.toNat (executed snapshots)) :
    ∃ p, (Iteration.waiting job).advanceBy limit.toNat m = p ∧ p.stop = .paused ∧
      p.snapshots.length = limit.toNat ∧ executed p.snapshots = limit.toNat ∧
      (Iteration.waiting (job.limitTo limit)).Yields m p.snapshots (.failed .stepLimit)
        p.machine := by
  have hbegin : job.begin m = (m, .ok (job.cursor p)) := begin_of_new hnew hassemble
  cases limited_cursor hlimit p limit m with
  | within free _ fits =>
      exact absurd fits (h _ _ _ ((yields_of_begun hbegin).mpr free))
  | @cut part c' m₁ i free bound length total code =>
      have hbound := (yields_limitTo hnew hassemble limit).mpr bound
      -- Before its first advance the iteration still waits, but the machine is
      -- the one it will see.
      cases hn : limit.toNat with
      | zero =>
          rw [hn] at free length total
          cases free
          exact ⟨_, rfl, rfl, rfl, rfl, hbound⟩
      | succ n =>
          rw [hn] at free length total
          rw [advanceBy_of_begun hbegin, free]
          exact ⟨_, rfl, rfl, length, total, hbound⟩

end Jobs

/-- A run that returns an output does so because its iteration ends. -/
theorem Run.ends_ok_iff {job : Job} {m m' : Machine} {traced : Bool}
    {output : String} :
    (Run.start job m traced).Ends (.ok output) m' ↔
      ∃ snapshots, (Iteration.waiting job).Yields m snapshots .exhausted m' ∧
        m'.state.output = output := by
  rw [Run.ends_iff_yields rfl]
  constructor
  · rintro ⟨snapshots, stop, hyields, hresult⟩
    cases stop with
    | paused => cases hresult
    | failed e => cases hresult
    | exhausted =>
        cases hresult
        exact ⟨snapshots, hyields, rfl⟩
  · rintro ⟨snapshots, hyields, rfl⟩
    exact ⟨snapshots, .exhausted, hyields, rfl⟩

/-- On a new machine a limit does nothing but cut a job off, whatever its program
and its input. -/
theorem limit_only_truncates {size : Int} {m : Machine}
    (hnew : Machine.new size = .ok m) {job : Job} {p : Program}
    (hassemble : assemble job.assembly = .ok p) (hlimit : job.limit = none)
    (limit : Int) : Truncates job m limit where
  within := by
    intro snapshots stop m' hyields hfits
    have hbound := yields_within hnew hassemble hlimit hyields hfits
    obtain ⟨result, hresult⟩ := hyields.exists_result
    exact ⟨hbound, fun traced => ⟨result, hresult,
      (Run.ends_iff_yields rfl).mpr ⟨_, stop, hyields, hresult⟩,
      (Run.ends_iff_yields rfl).mpr ⟨_, stop, hbound, hresult⟩⟩⟩
  cut := by
    intro h
    obtain ⟨p, hp, hstop, hlength, htotal, hbound⟩ :=
      cut_of_not_fits hnew hassemble hlimit h
    refine ⟨p, hp, hstop, hlength, htotal, hbound, fun traced => ?_⟩
    exact (Run.ends_iff_yields rfl).mpr ⟨_, _, hbound, rfl⟩
  lifted := by
    intro snapshots m' hyields
    obtain ⟨hfree, -⟩ := yields_without hnew hassemble hlimit hyields
    exact ⟨hfree, fun larger hle => yields_lifted hnew hassemble hlimit hyields hle⟩
  lifted_run := by
    intro traced output m' hends
    obtain ⟨snapshots, hyields, houtput⟩ := Run.ends_ok_iff.mp hends
    obtain ⟨hfree, -⟩ := yields_without hnew hassemble hlimit hyields
    refine ⟨Run.ends_ok_iff.mpr ⟨snapshots, hfree, houtput⟩, fun larger hle => ?_⟩
    have hlarger := yields_lifted hnew hassemble hlimit hyields hle
    exact Run.ends_ok_iff.mpr ⟨snapshots, hlarger, houtput⟩

/-- Two instructions, the second of which ends the program: a limit of one cuts it
off, a limit of two does not. -/
theorem limit_only_truncates_exit :
    let job : Job := { assembly := "li $v0, 10\nsyscall" }
    ∃ m p, Machine.new 1 = .ok m ∧ assemble job.assembly = .ok p ∧ job.limit = none ∧
      ((Iteration.waiting job).advanceBy 3 m).stop = .exhausted ∧
      executed ((Iteration.waiting job).advanceBy 3 m).snapshots = 2 ∧
      Truncates job m 1 ∧ Truncates job m 2 := by
  intro job
  have hassemble : assemble job.assembly =
      .ok { code := #[⟨⟨"li", ["$v0", "10"]⟩, 1⟩, ⟨⟨"syscall", []⟩, 2⟩] } := by
        decide +kernel
  have hnew : Machine.new 1 = .ok { memorySize := 1, state := State.fresh 1 } := rfl
  exact ⟨_, _, hnew, hassemble, rfl, by decide +kernel, by decide +kernel,
    limit_only_truncates hnew hassemble rfl 1,
    limit_only_truncates hnew hassemble rfl 2⟩

end TapeMips.Machine
