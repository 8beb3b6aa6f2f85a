import TapeMips.Machine.Iteration

/-!
# Running a program to its end

A run advances an iteration until it is over and keeps only what counts at the
end. Programs need not end, so a run is a state that can be carried on by any
number of advances: carrying it on by more than it needs changes nothing, and a
program ends exactly if some number of advances settles its run.

A traced run also keeps a line for every instruction it was about to carry out,
the one that failed included.
-/

namespace TapeMips.Machine

/-- A run in progress, or its end. -/
structure Run where
  iteration : Iteration
  machine : Machine
  traced : Bool := false
  /-- The lines of the trace, last first. -/
  trace : List String := []
  /-- How the run ended: with all of its output, or with a failure. -/
  outcome : Option (Except Failure String) := none

namespace Run

/-- A run of a job that is about to begin. -/
def start (job : Job) (m : Machine) (traced : Bool := false) : Run :=
  { iteration := .waiting job, machine := m, traced }

/-- Notes the instruction that is about to be carried out. -/
def note (r : Run) (c : Cursor) : List String :=
  if r.traced then c.traceLine?.toList ++ r.trace else r.trace

/-- One advance of a run. Beginning and noticing the end take an advance of their
own. -/
def step (r : Run) : Run :=
  match r.outcome, r.iteration with
  | some _, _ => r
  | none, .waiting job =>
    match job.begin r.machine with
    | (m, .error e) =>
      { r with iteration := .over, machine := m, outcome := some (.error e) }
    | (m, .ok c) => { r with iteration := .running c, machine := m }
  | none, .running c =>
    let trace := r.note c
    let a := c.advance r.machine
    let outcome := match a.turn with
      | .failed e => some (.error e)
      | _ => none
    { r with iteration := a.iteration, machine := a.machine, trace, outcome }
  | none, .over => { r with outcome := some (.ok r.machine.state.output) }

/-- Carries a run on by a number of advances. -/
def carryOn : (advances : Nat) → Run → Run
  | 0, r => r
  | n + 1, r => if r.outcome.isSome then r else carryOn n r.step

/-- The trace as printed, one line per instruction. -/
def traceText (r : Run) : String :=
  r.trace.reverse.foldl (fun text line => text ++ line ++ "\n") ""

end Run

end TapeMips.Machine
