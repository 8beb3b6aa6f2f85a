import TapeMips.CommandLine.CompileFile

/-!
# The command

The outer layer of the command: it answers the script with the files of the
machine and prints what there is to say.
-/

namespace TapeMips.CommandLine

open Files

/-- What the system complains of when a path is to blame. -/
def systemError (p : Path) : IO.Error → SystemError
  | .noFileOrDirectory .. => .noSuchFile p.text
  | e => .other (toString e)

/-- Does something, and keeps the complaint if the system refuses. -/
def attempt {α : Type} (complaint : IO.Error → SystemError) (action : IO α) :
    IO (Except SystemError α) := do
  try return .ok (← action)
  catch e => return .error (complaint e)

/-- Whether there is a file to open. There is none if something on the way is no
directory. -/
def fileExists (p : Path) : IO (Except SystemError Bool) := do
  try
    let _ ← IO.FS.Handle.mk p.text .read
    return .ok true
  catch
    | .noFileOrDirectory .. | .inappropriateType .. => return .ok false
    | e => return .error (systemError p e)

/-- Answers a request with the files of the machine. What was written to a file is
in it once it has been closed; the handle itself goes when nobody holds it any
more. -/
def answer {α : Type} : SystemCall IO.FS.Handle α → IO α
  | .exists p => fileExists p
  | .read p =>
    attempt (systemError p) do return (← IO.FS.readBinFile p.text).data.toList
  | .openToWrite p => attempt (systemError p) (IO.FS.Handle.mk p.text .write)
  | .write file bytes => attempt (.other ∘ toString) (file.write ⟨bytes.toArray⟩)
  | .close file => attempt (.other ∘ toString) file.flush
  | .unlink p => attempt (systemError p) (IO.FS.removeFile p.text)

/-- Carries out a script. -/
def perform {α : Type} : Script IO.FS.Handle α → IO α
  | .done a => return a
  | .ask call next => do perform (next (← answer call))

end TapeMips.CommandLine

def main (arguments : List String) : IO UInt32 := do
  let ending ← TapeMips.CommandLine.perform
    (TapeMips.CommandLine.compileFile arguments)
  IO.print ending.output
  IO.eprint ending.errors
  return UInt32.ofNat ending.exitCode
