import TapeMips.Entries
import TapeMips.Machine.Run
import TapeMips.Text.Quoted

/-!
# Sessions

A session is one machine with any number of named iterations on it. They share
memory, registers, output and the memory size, and take turns; whichever begins,
and every run, resets what they share.
-/

namespace TapeMips.Machine

/-- A machine and the iterations on it, each under its own name. -/
structure Session where
  machine : Machine
  iterations : List (String × Iteration) := []
  deriving Repr

/-- No iteration goes by this name. -/
structure UnknownIteration where
  name : String
  deriving DecidableEq, Repr

def UnknownIteration.message (e : UnknownIteration) : String := Text.quoted e.name

namespace Session

/-- A session on a new machine. -/
def new (memorySize : Int) : Except SizeError Session :=
  (Machine.new memorySize).map fun machine => { machine }

/-- The iteration that goes by a name. -/
def find (s : Session) (name : String) : Except UnknownIteration Iteration :=
  match s.iterations.lookup name with
  | some it => .ok it
  | none => .error ⟨name⟩

/-- Puts an iteration under a name, in place of an older one. -/
def bind (s : Session) (name : String) (it : Iteration) : Session :=
  { s with iterations := Entries.bind s.iterations name it }

/-- Makes an iteration that has not begun. -/
def start (s : Session) (name : String) (job : Job) : Session :=
  s.bind name (.waiting job)

/-- Advances an iteration up to `count` times. If that is not once, the name does
not matter. -/
def advance (s : Session) (name : String) (count : Nat) :
    Except UnknownIteration (List Snapshot × Stop × Session) :=
  if count = 0 then .ok ([], .paused, s)
  else do
    let it ← s.find name
    let p := it.advanceBy count s.machine
    return (p.snapshots, p.stop, { s with machine := p.machine }.bind name p.iteration)

/-- Puts an end to an iteration. -/
def close (s : Session) (name : String) : Except UnknownIteration Session := do
  let _ ← s.find name
  return s.bind name .over

/-- Resets the machine. -/
def reset (s : Session) : Except SizeError Session :=
  s.machine.reset.map fun machine => { s with machine }

/-- Asks for another memory size, which the next reset puts in force. -/
def resize (s : Session) (memorySize : Int) : Session :=
  { s with machine := { s.machine with memorySize } }

end Session

end TapeMips.Machine
