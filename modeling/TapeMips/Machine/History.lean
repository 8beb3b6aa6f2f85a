import TapeMips.Machine.Session

/-!
# Histories of a session

A history is what is asked of a session, one request after the other. A request
that is turned down leaves the session as it was. A run stands in a history with
the number of advances by which it was carried on, whether or not it has come to
its end by then, so a history may also stop in the middle of a run.

Every run, and every iteration that is advanced for the first time, resets the
machine. The size that a reset puts in force stays in force until another reset
succeeds, whatever sizes are asked for in between. `sizeInForce` keeps account of
it along a history without looking at the memory.
-/

namespace TapeMips.Machine

/-- What can be asked of a session. -/
inductive Request where
  | run (job : Job) (traced : Bool) (advances : Nat)
  | reset
  | resize (memorySize : Int)
  | start (name : String) (job : Job)
  | advance (name : String) (count : Nat)
  | close (name : String)
  deriving DecidableEq, Repr

/-- The iteration that a request is about. -/
def Request.iteration? : Request → Option String
  | .start name _ | .advance name _ | .close name => some name
  | .run .. | .reset | .resize _ => none

namespace Session

/-- The session after a request. -/
def perform (s : Session) : Request → Session
  | .run job traced advances =>
    { s with machine := ((Run.start job s.machine traced).carryOn advances).machine }
  | .reset =>
    match s.reset with
    | .ok s' => s'
    | .error _ => s
  | .resize memorySize => s.resize memorySize
  | .start name job => s.start name job
  | .advance name count =>
    match s.advance name count with
    | .ok (_, _, s') => s'
    | .error _ => s
  | .close name =>
    match s.close name with
    | .ok s' => s'
    | .error _ => s

/-- The session after a history. -/
def performAll (s : Session) (history : List Request) : Session :=
  history.foldl perform s

/-- The iteration is there and has not begun. -/
def isWaiting (s : Session) (name : String) : Bool :=
  match s.iterations.lookup name with
  | some (.waiting _) => true
  | _ => false

/-- The request resets the machine, and the size asked for can be had. -/
def resets (s : Session) (request : Request) : Bool :=
  (sizeError? s.machine.memorySize).isNone &&
    match request with
    | .run _ _ advances => advances != 0
    | .reset => true
    | .advance name count => count != 0 && s.isWaiting name
    | .resize _ | .start .. | .close _ => false

/-- The size in force after a history, if `inForce` is in force before it. -/
def sizeInForce (s : Session) (inForce : Int) : List Request → Int
  | [] => inForce
  | request :: rest =>
    (s.perform request).sizeInForce
      (if s.resets request then s.machine.memorySize else inForce) rest

end Session

end TapeMips.Machine
