import TapeMips.Proofs.Iterations
import TapeMips.Proofs.Sessions

/-!
# Beginning anew and going on

Whatever has happened to a machine, a run that begins on it and an iteration that
is advanced for the first time look at one thing only, the size that is asked for:
beginning replaces memory, registers and output before anything reads them
(`begin_eq_of_new`). So neither can tell the machine from a new one of that size.

From then on an iteration reads the machine at every advance. As long as nobody
else touches it, nothing is lost between two advances, and advancing in parts comes
to the same as advancing at once: the snapshots of the parts follow one another, and
the first part that does not pause says how the iteration stops (`advanceBy_add`).
A history that is left to one iteration (`LeftTo`) may still be full of requests
about others, of which the machine notices nothing.
-/

namespace TapeMips.Machine

open Asm

theorem begin_eq_of_new {m m₀ : Machine} (hnew : Machine.new m.memorySize = .ok m₀)
    (job : Job) : job.begin m = job.begin m₀ := by
  have hreset : m.reset = .ok m₀ := by
    rw [← hnew, Machine.new, reset, reset]
  obtain ⟨-, -, hreset₀⟩ := new_eq_ok hnew
  rw [Job.begin, Job.begin, hreset, hreset₀]

theorem carryOn_eq_of_new {m m₀ : Machine} (hnew : Machine.new m.memorySize = .ok m₀)
    (job : Job) (traced : Bool) (n : Nat) :
    (Run.start job m traced).carryOn (n + 1) =
      (Run.start job m₀ traced).carryOn (n + 1) := by
  have hstep : (Run.start job m traced).step = (Run.start job m₀ traced).step := by
    simp only [Run.step, Run.start, begin_eq_of_new hnew]
  rw [Run.carryOn_succ, Run.carryOn_succ, hstep]

theorem advanceBy_eq_of_new {m m₀ : Machine} (hnew : Machine.new m.memorySize = .ok m₀)
    (job : Job) (n : Nat) :
    (Iteration.waiting job).advanceBy (n + 1) m =
      (Iteration.waiting job).advanceBy (n + 1) m₀ := by
  simp only [Iteration.advanceBy, Iteration.advance, begin_eq_of_new hnew]

theorem ends_iff_of_new {m m₀ m' : Machine} (hnew : Machine.new m.memorySize = .ok m₀)
    (job : Job) (traced : Bool) (result : Except Failure String) :
    (Run.start job m traced).Ends result m' ↔
      (Run.start job m₀ traced).Ends result m' := by
  have hstep : (Run.start job m traced).step = (Run.start job m₀ traced).step :=
    carryOn_eq_of_new hnew job traced 0
  rw [← Run.ends_step_iff, hstep, Run.ends_step_iff]

/-- The first of two stops that is not a pause. -/
def Stop.orElse : Stop → Stop → Stop
  | .paused, stop => stop
  | stop, _ => stop

/-- What is reported and left by some advances and then by others. -/
def Progress.andThen (p q : Progress) : Progress :=
  { q with snapshots := p.snapshots ++ q.snapshots, stop := p.stop.orElse q.stop }

/-- Once an iteration has stopped, no further advance adds anything. -/
theorem andThen_over {p : Progress} (hstop : p.stop ≠ .paused)
    (hover : p.iteration = .over) (k : Nat) :
    p.andThen (p.iteration.advanceBy k p.machine) = p := by
  obtain ⟨snapshots, stop, it, m⟩ := p
  cases hover
  have hfirst : ∀ next, stop.orElse next = stop := by
    intro next
    cases stop with
    | paused => exact absurd rfl hstop
    | exhausted => rfl
    | failed e => rfl
  cases k with
  | zero => simp [Progress.andThen, Iteration.advanceBy, hfirst]
  | succ k => simp [Progress.andThen, advanceBy_over, hfirst]

/-- After an advance without a snapshot it does not matter how many more are asked
for. -/
theorem advanceBy_of_not_snapshot {it : Iteration} {m : Machine}
    (h : ∀ s, (it.advance m).turn ≠ .snapshot s) (n : Nat) :
    it.advanceBy (n + 1) m = it.advanceBy 1 m ∧ (it.advanceBy 1 m).stop ≠ .paused := by
  rcases hfirst : it.advance m with ⟨turn, it', m'⟩
  rw [hfirst] at h
  cases turn with
  | snapshot s => exact absurd rfl (h s)
  | exhausted => simp [Iteration.advanceBy, hfirst]
  | failed e => simp [Iteration.advanceBy, hfirst]

theorem advanceBy_add (it : Iteration) (m : Machine) (n k : Nat) :
    it.advanceBy (n + k) m =
      (it.advanceBy n m).andThen
        ((it.advanceBy n m).iteration.advanceBy k (it.advanceBy n m).machine) := by
  induction n generalizing it m with
  | zero =>
      rw [Nat.zero_add]
      rfl
  | succ n ih =>
      rw [Nat.add_right_comm]
      by_cases hsnapshot : ∃ s, (it.advance m).turn = .snapshot s
      · obtain ⟨s, hs⟩ := hsnapshot
        have hfirst : it.advance m =
            ⟨.snapshot s, (it.advance m).iteration, (it.advance m).machine⟩ := by
          rw [← hs]
        rw [advanceBy_snapshot hfirst, advanceBy_snapshot hfirst, ih]
        rfl
      · have hlast := advanceBy_of_not_snapshot fun s hs => hsnapshot ⟨s, hs⟩
        obtain ⟨hsame, hstop⟩ := hlast n
        rw [hsame, andThen_over hstop (over_of_stopped hstop) k]
        exact (hlast (n + k)).1

/-- The number of advances that a request asks of an iteration. -/
def Request.count? (name : String) : Request → Option Nat
  | .advance other count => if other = name then some count else none
  | .run .. | .reset | .resize _ | .start .. | .close _ => none

def advancesOf (name : String) : List Request → Nat
  | [] => 0
  | request :: rest => (request.count? name).getD 0 + advancesOf name rest

/-- What a request reports about an iteration. -/
def Session.report? (name : String) (s : Session) (request : Request) :
    Option (List Snapshot × Stop) :=
  match request.count? name with
  | none => none
  | some count =>
    match s.advance name count with
    | .ok (snapshots, stop, _) => some (snapshots, stop)
    | .error _ => none

/-- What a history reports about an iteration, one advance after the other. -/
def Session.reports (name : String) (s : Session) :
    List Request → List (List Snapshot × Stop)
  | [] => []
  | request :: rest =>
    (s.report? name request).toList ++ (s.perform request).reports name rest

/-- Along a history nothing but the advances of one iteration touches it or the
machine. -/
def Session.LeftTo (name : String) (s : Session) : List Request → Prop
  | [] => True
  | request :: rest =>
    ((∃ count, request = .advance name count) ∨
      request.iteration? ≠ some name ∧ (s.perform request).machine = s.machine) ∧
    (s.perform request).LeftTo name rest

/-- What a history reports about an iteration and leaves is what these advances
report and leave. -/
structure Amounts (name : String) (s : Session) (history : List Request)
    (p : Progress) : Prop where
  snapshots : (s.reports name history).flatMap (·.1) = p.snapshots
  stop : ((s.reports name history).map (·.2)).foldr Stop.orElse .paused = p.stop
  iteration : (s.performAll history).iterations.lookup name = some p.iteration
  machine : (s.performAll history).machine = p.machine

section Histories

variable {name : String} {s : Session} {it : Iteration} {rest : List Request}

theorem count?_advance (name : String) (count : Nat) :
    (Request.advance name count).count? name = some count :=
  if_pos rfl

theorem count?_other {request : Request} (h : request.iteration? ≠ some name) :
    request.count? name = none := by
  cases request with
  | advance other count => exact if_neg fun heq => h (congrArg some heq)
  | run => rfl
  | reset => rfl
  | resize => rfl
  | start => rfl
  | close => rfl

theorem Amounts.of_other {request : Request} {p : Progress}
    (hother : request.iteration? ≠ some name)
    (h : Amounts name (s.perform request) rest p) :
    Amounts name s (request :: rest) p := by
  have hreports : s.reports name (request :: rest) =
      (s.perform request).reports name rest := by
    rw [Session.reports, Session.report?, count?_other hother]
    rfl
  exact ⟨by rw [hreports, h.snapshots], by rw [hreports, h.stop],
    h.iteration, h.machine⟩

theorem perform_of_advance {count : Nat} {report : List Snapshot} {stop : Stop}
    {s' : Session} (h : s.advance name count = .ok (report, stop, s')) :
    s.perform (.advance name count) = s' := by
  simp only [Session.perform, h]

theorem Amounts.of_advance {count : Nat} {p q : Progress} {s' : Session}
    (hadvance : s.advance name count = .ok (p.snapshots, p.stop, s'))
    (h : Amounts name s' rest q) :
    Amounts name s (.advance name count :: rest) (p.andThen q) := by
  have hperform := perform_of_advance hadvance
  have hreports : s.reports name (.advance name count :: rest) =
      (p.snapshots, p.stop) :: s'.reports name rest := by
    rw [Session.reports, hperform, Session.report?, count?_advance]
    simp only [hadvance]
    rfl
  refine ⟨?_, ?_, ?_, ?_⟩
  · rw [hreports, List.flatMap_cons, h.snapshots]
    rfl
  · rw [hreports, List.map_cons, List.foldr_cons, h.stop]
    rfl
  · rw [Session.performAll, List.foldl_cons, hperform]
    exact h.iteration
  · rw [Session.performAll, List.foldl_cons, hperform]
    exact h.machine

theorem advance_progress (hlookup : s.iterations.lookup name = some it) (count : Nat) :
    ∃ s', s.advance name count =
        .ok ((it.advanceBy count s.machine).snapshots,
          (it.advanceBy count s.machine).stop, s') ∧
      s'.iterations.lookup name = some (it.advanceBy count s.machine).iteration ∧
      s'.machine = (it.advanceBy count s.machine).machine := by
  cases count with
  | zero => exact ⟨s, rfl, hlookup, rfl⟩
  | succ n => exact ⟨_, advance_of_lookup hlookup rfl, lookup_bind_self _ _, rfl⟩

/-- Along a history that is left to it an iteration comes as far as if it were
advanced at once. -/
theorem amounts_of_leftTo {history : List Request}
    (hlookup : s.iterations.lookup name = some it) (hleft : s.LeftTo name history) :
    Amounts name s history (it.advanceBy (advancesOf name history) s.machine) := by
  induction history generalizing s it with
  | nil => exact ⟨rfl, rfl, hlookup, rfl⟩
  | cons request rest ih =>
      obtain ⟨⟨count, rfl⟩ | ⟨hother, hmachine⟩, hrest⟩ := hleft
      · obtain ⟨s', hadvance, hlookup', hmachine⟩ := advance_progress hlookup count
        rw [perform_of_advance hadvance] at hrest
        rw [advancesOf, count?_advance, Option.getD_some, advanceBy_add, ← hmachine]
        exact (ih hlookup' hrest).of_advance hadvance
      · rw [advancesOf, count?_other hother, Option.getD_none,
          Nat.zero_add, ← hmachine]
        exact (ih ((lookup_perform_other hother).trans hlookup) hrest).of_other hother

end Histories

/-- A run that begins in a session, or an iteration of it, goes as it would on
this machine. -/
structure StartsLike (m : Machine) (s : Session) : Prop where
  run : ∀ job traced result m', (Run.start job s.machine traced).Ends result m' ↔
    (Run.start job m traced).Ends result m'
  run_states : ∀ job traced n, (Run.start job s.machine traced).carryOn (n + 1) =
    (Run.start job m traced).carryOn (n + 1)
  iteration : ∀ name job later, s.iterations.lookup name = some (.waiting job) →
    s.LeftTo name later → 0 < advancesOf name later →
    Amounts name s later ((Iteration.waiting job).advanceBy (advancesOf name later) m)
  iteration_states : ∀ job n, (Iteration.waiting job).advanceBy (n + 1) s.machine =
    (Iteration.waiting job).advanceBy (n + 1) m

/-- Whatever has been asked of a session, what follows is as on a new machine of
its size. -/
theorem performAll_startsLike_new (s : Session) (history : List Request) {m : Machine}
    (hnew : Machine.new (s.performAll history).machine.memorySize = .ok m) :
    StartsLike m (s.performAll history) where
  run := fun job traced result _ => ends_iff_of_new hnew job traced result
  run_states := carryOn_eq_of_new hnew
  iteration := by
    intro name job later hlookup hleft hpos
    have hamounts := amounts_of_leftTo hlookup hleft
    obtain ⟨n, hn⟩ := Nat.exists_eq_add_one_of_ne_zero (Nat.ne_of_gt hpos)
    rw [hn, advanceBy_eq_of_new hnew, ← hn] at hamounts
    exact hamounts
  iteration_states := advanceBy_eq_of_new hnew

/-- An iteration that is made before a run and a change of size, and advanced in
two parts after them, with another one made in between. -/
theorem performAll_startsLike_new_resized :
    let job : Job := { assembly := "addi $s0, $s0, 7\nsb $s0, 2($sp)" }
    let history : List Request := [.start "store" job,
      .run { assembly := "li $v0, 11\nsyscall" } false 9, .resize 3]
    let later : List Request :=
      [.advance "store" 1, .start "other" job, .advance "store" 2]
    ∃ s m, Session.new 2 = .ok s ∧
      Machine.new (s.performAll history).machine.memorySize = .ok m ∧
      (s.performAll history).iterations.lookup "store" = some (.waiting job) ∧
      (s.performAll history).LeftTo "store" later ∧
      advancesOf "store" later = 3 ∧
      StartsLike m (s.performAll history) := by
  intro job history later
  let s : Session := { machine := { memorySize := 2, state := State.fresh 2 } }
  have hnew : Machine.new (s.performAll history).machine.memorySize =
      .ok { memorySize := 3, state := State.fresh 3 } := rfl
  have hleft : (s.performAll history).LeftTo "store" later :=
    ⟨.inl ⟨1, rfl⟩, .inr ⟨by decide, rfl⟩, .inl ⟨2, rfl⟩, trivial⟩
  exact ⟨s, _, rfl, hnew, rfl, hleft, rfl, performAll_startsLike_new s history hnew⟩

end TapeMips.Machine
