import TapeMips.CommandLine.Options
import TapeMips.Compile
import TapeMips.Files.Script

/-!
# Compiling a file from the command line

The command takes the path of a source and writes the program beside it. It
checks in this order: the command line, the suffix, that the source is there and
can be read, that it is UTF-8, that it is balanced. Only then is the output
opened, which empties it.

The program is written as it is generated, in portions, and any request may be
refused on the way. Whatever the system refuses between opening and closing, the
output is taken away again, so that no part of a program is left; and that may be
refused as well.
-/

namespace TapeMips.CommandLine

open Files

/-- How a run of the command ends. -/
inductive Ending where
  | help
  | usage (error : UsageError)
  | wrongSuffix (error : WrongSuffix)
  | sourceNotFound (reason : String)
  | unreadable (argument reason : String)
  | malformed (reason : Source.Malformed)
  | unwritable (output reason : String)
  /-- The generator stopped in the middle of the program. -/
  | stopped (failure : Codegen.LoopUnderflow)
  | compiled
  deriving DecidableEq, Repr

namespace Ending

/-- The run ended while the command line was being read. -/
def isEarly : Ending → Bool
  | .help | .usage _ => true
  | _ => false

def exitCode : Ending → Nat
  | .help | .compiled => 0
  | .usage _ => 2
  | _ => 1

def usageLine : String := "usage: bfmips [-h] source\n"

def helpText : String :=
  usageLine ++ "\n" ++
    "Compile a Brainfuck program to MIPS assembly\n" ++ "\n" ++
    "positional arguments:\n" ++
    "  source      Path to the Brainfuck source file (*.bf)\n" ++ "\n" ++
    "options:\n" ++
    "  -h, --help  show this help message and exit\n"

/-- What is printed for the user. -/
def output : Ending → String
  | .help => helpText
  | _ => ""

/-- What is printed as an error. -/
def errors : Ending → String
  | .help | .compiled => ""
  | .usage e => usageLine ++ "bfmips: error: " ++ e.message ++ "\n"
  | .wrongSuffix e => e.message ++ "\n"
  | .sourceNotFound reason => reason ++ "\n"
  | .unreadable argument reason =>
    "Could not read " ++ argument ++ ": " ++ reason ++ "\n"
  | .malformed reason => "Compilation error: " ++ reason.message ++ "\n"
  | .unwritable output reason => "Could not write " ++ output ++ ": " ++ reason ++ "\n"
  | .stopped failure => failure.message ++ "\n"

end Ending

/-- The one setting of the command is the path of the source. -/
def compileGrammar : Grammar String where
  argument := some { name := "source", store := fun text _ => text }

/-- A source and where its program goes. -/
structure Target where
  /-- The source as the user named it. -/
  argument : String
  source : Path
  output : Path
  deriving DecidableEq, Repr

/-- What a command line asks to be compiled. -/
def Target.ofArguments (arguments : List String) : Except Ending Target :=
  match compileGrammar.read "" arguments with
  | .error e => .error (.usage e)
  | .ok .help => .error .help
  | .ok (.run argument) =>
    match outputPath argument with
    | .error e => .error (.wrongSuffix e)
    | .ok output => .ok { argument, source := Path.ofText argument, output }

/-! ## Scripts that can fail

A failure skips what is left of the script, up to where it is caught. The two
halves of the command fail in different ways and are caught apart. -/

/-- A script that may fail. -/
abbrev Attempt (ε Handle α : Type) : Type 1 := ExceptT ε (Script Handle) α

section

variable {ε Handle α : Type}

/-- Makes a request; a refusal is a failure. -/
def demand (refused : SystemError → ε)
    (call : SystemCall Handle (Except SystemError α)) : Attempt ε Handle α := do
  match ← ExceptT.lift (Script.request call) with
  | .ok a => return a
  | .error e => throw (refused e)

end

variable {Handle : Type}

/-- Why there is no source to compile. -/
inductive Unread where
  /-- Nothing stands where the argument leads. -/
  | missing (argument : String)
  | system (error : SystemError)
  | undecodable (error : Text.Utf8.DecodeError)
  deriving DecidableEq, Repr

/-- How a run ends without a source. -/
def Unread.ending (argument : String) : Unread → Ending
  | .missing argument => .sourceNotFound ("Source file not found: " ++ argument)
  | .system (.noSuchFile path) => .sourceNotFound (SystemError.noSuchFile path).message
  | .system e => .unreadable argument e.message
  | .undecodable e => .unreadable argument e.message

/-- Reads the source, with its line ends unified. -/
def readSource (target : Target) : Attempt Unread Handle String := do
  if ← demand .system (.exists target.source) then
    match Text.Utf8.decode (← demand .system (.read target.source)) with
    | .error e => throw (.undecodable e)
    | .ok cs => return String.ofList (Text.unifyNewlines cs)
  else throw (.missing target.argument)

/-- Why no program was written. -/
inductive Uncompiled where
  | malformed (reason : Source.Malformed)
  | system (error : SystemError)
  | stopped (failure : Codegen.LoopUnderflow)
  deriving DecidableEq, Repr

/-- How a run ends without a program. -/
def Uncompiled.ending (output : Path) : Uncompiled → Ending
  | .malformed reason => .malformed reason
  | .system e => .unwritable output.text e.message
  | .stopped failure => .stopped failure

/-- Refuses a malformed source. -/
def validate (source : String) : Attempt Uncompiled Handle Unit :=
  match Source.malformed? source with
  | some reason => throw (.malformed reason)
  | none => pure ()

/-- How many bytes of a text are collected before they are handed to the system. -/
def portionSize : Nat := 8192

/-- The pieces of a text in portions of at least `portionSize` bytes, behind what
has been collected already; the last portion is what is left. -/
def portions (held : String) : List String → List String
  | [] => [held]
  | piece :: rest =>
    let held := held ++ piece
    if portionSize ≤ held.utf8ByteSize then held :: portions "" rest
    else portions held rest

/-- Writes one text after the other. -/
def writeAll (file : Handle) : List String → Attempt Uncompiled Handle Unit
  | [] => pure ()
  | text :: rest => do
    demand .system (.write file (Text.Utf8.encode text))
    writeAll file rest

/-- Writes the program to an open file. -/
def generateTo (source : String) (file : Handle) : Attempt Uncompiled Handle Unit := do
  let g := Codegen.generate source
  writeAll file (portions "" g.pieces)
  match g.failure with
  | some failure => throw (.stopped failure)
  | none => pure ()

/-- Opens a file for `body` to write to, and closes it however that ends. If both
fail it is the failure to close that is known afterwards. -/
def withOutput (p : Path) (body : Handle → Attempt Uncompiled Handle Unit) :
    Attempt Uncompiled Handle Unit := do
  let file ← demand .system (.openToWrite p)
  try body file
  finally demand .system (.close file)

/-- Takes away what stands where a path leads; it is no failure if nothing does. -/
def remove (p : Path) : Attempt Uncompiled Handle Unit := do
  match ← ExceptT.lift (Script.request (.unlink p)) with
  | .ok () => pure ()
  | .error (.noSuchFile _) => pure ()
  | .error e => throw (.system e)

/-- Writes the program of a source. What the system refuses leaves no output. -/
def compileTo (output : Path) (source : String) : Attempt Uncompiled Handle Unit := do
  validate source
  try withOutput output (generateTo source)
  catch
    | .system e => do
      remove output
      throw (.system e)
    | e => throw e

/-- Runs the command. -/
def compileFile (arguments : List String) : Script Handle Ending := do
  match Target.ofArguments arguments with
  | .error ending => return ending
  | .ok target =>
    match ← (readSource target).run with
    | .error e => return e.ending target.argument
    | .ok source =>
      match ← (compileTo target.output source).run with
      | .error e => return e.ending target.output
      | .ok () => return .compiled

end TapeMips.CommandLine
