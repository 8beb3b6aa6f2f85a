import TapeMips.Files.Tree

/-!
# Scripts

What a program asks the file system is written down as a script: a request, and
for every answer to it the script that goes on from there. A script says nothing
about who answers. The command answers its scripts with the files of the machine
that it runs on; here they are answered by a disk.

A disk is a tree of files together with what is going to go wrong on it. Opening,
reading and unlinking do what the tree says. Handing bytes to a file and closing
it may fail at any time, and since a system may hold back what it is given, such
a failure may also lose bytes that were taken before: all that is certain is that
the file then holds a prefix of what was written to it. Reading the device never
comes to an end, and then neither does the script.
-/

namespace TapeMips.Files

/-- A request to a file system, whose open files are known by handles, and the
type of its answer. -/
inductive SystemCall (Handle : Type) : Type → Type where
  | exists (path : Path) : SystemCall Handle (Except SystemError Bool)
  /-- Reads a whole file. -/
  | read (path : Path) : SystemCall Handle (Except SystemError (List UInt8))
  | openToWrite (path : Path) : SystemCall Handle (Except SystemError Handle)
  | write (file : Handle) (bytes : List UInt8) :
      SystemCall Handle (Except SystemError Unit)
  | close (file : Handle) : SystemCall Handle (Except SystemError Unit)
  | unlink (path : Path) : SystemCall Handle (Except SystemError Unit)

/-- A program that asks a file system. -/
inductive Script (Handle : Type) (α : Type) : Type 1 where
  | done (result : α)
  | ask {β : Type} (call : SystemCall Handle β) (next : β → Script Handle α)

namespace Script

variable {Handle α β : Type}

def bind : Script Handle α → (α → Script Handle β) → Script Handle β
  | .done a, f => f a
  | .ask call next, f => .ask call fun answer => (next answer).bind f

instance : Monad (Script Handle) where
  pure := .done
  bind := bind

instance : MonadFinally (Script Handle) where
  tryFinally' script finalizer := do
    let a ← script
    let b ← finalizer (some a)
    return (a, b)

/-- A single request. -/
def request (call : SystemCall Handle α) : Script Handle α := .ask call .done

end Script

/-- What goes wrong when a file is written or closed. -/
structure Fault where
  error : SystemError
  /-- How many bytes stay of all that was written to the file. -/
  kept : Nat
  deriving DecidableEq, Repr

/-- A file after bytes were handed to it, and whether they were taken. -/
def Node.append (node : Node) (bytes : List UInt8) (fault : Option Fault) :
    Except SystemError Unit × Node :=
  match node, fault with
  | .file content, none => (.ok (), .file (content ++ bytes))
  | .file content, some f => (.error f.error, .file ((content ++ bytes).take f.kept))
  | .fullDevice, none =>
    (if bytes.isEmpty then .ok () else .error .noSpace, .fullDevice)
  | node, none => (.ok (), node)
  | node, some f => (.error f.error, node)

/-- A tree of files and what will go wrong on it. -/
structure Disk where
  tree : Tree
  /-- How the next writes and closings fare, in their order; those behind the list
  go well. -/
  faults : List (Option Fault) := []
  deriving DecidableEq, Repr

namespace Disk

/-- Hands bytes to an open file. A file that is not there any more takes them all
the same. -/
def transfer (d : Disk) (place : List String) (bytes : List UInt8) :
    Except SystemError Unit × Disk :=
  let later := d.faults.tail
  match d.tree.node? place with
  | none => (.ok (), { d with faults := later })
  | some node =>
    let (answer, node) := node.append bytes d.faults.head?.join
    (answer, { tree := d.tree.insert place node, faults := later })

/-- The content of a file, `none` if reading it never ends. -/
def read (d : Disk) (p : Path) : Option (Except SystemError (List UInt8)) :=
  match d.tree.find p with
  | .error e => some (.error e)
  | .ok none => some (.error (.noSuchFile p.text))
  | .ok (some .directory) => some (.error (.isDirectory p.text))
  | .ok (some (.file content)) => some (.ok content)
  | .ok (some .fullDevice) => none

/-- The answer to a request, `none` if it never comes, and the disk afterwards. -/
def answer {β : Type} (d : Disk) : SystemCall (List String) β → Option β × Disk
  | .exists p => (some (d.tree.exists? p), d)
  | .read p => (d.read p, d)
  | .openToWrite p =>
    match d.tree.openToWrite p with
    | .error e => (some (.error e), d)
    | .ok (place, tree) => (some (.ok place), { d with tree })
  | .write place bytes =>
    let (taken, d) := d.transfer place bytes
    (some taken, d)
  | .close place =>
    let (closed, d) := d.transfer place []
    (some closed, d)
  | .unlink p =>
    match d.tree.unlink p with
    | .error e => (some (.error e), d)
    | .ok tree => (some (.ok ()), { d with tree })

end Disk

/-- Carries out a script on a disk: its result, `none` if it never ends, and the disk
afterwards. -/
def Script.runOn {α : Type} : Script (List String) α → Disk → Option α × Disk
  | .done a, d => (some a, d)
  | .ask call next, d =>
    match d.answer call with
    | (some answer, d) => (next answer).runOn d
    | (none, d) => (none, d)

end TapeMips.Files
