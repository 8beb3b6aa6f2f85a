import TapeMips.Codegen.Generate
import TapeMips.Source.Balance
import TapeMips.Source.Stream

/-!
# Compiling

Compiling validates first and generates second. A balanced source never makes
the generator run out of open loops, so once the first character has been
written nothing can fail any more.
-/

namespace TapeMips

open Source Codegen

/-- A compiled program. -/
structure Compilation where
  assembly : String
  context : LoopContext
  /-- What is remarked about it in the log. -/
  remark : String
  deriving DecidableEq, Repr

/-- The remark for the log that a source was compiled. -/
def compileRemark (source : String) (context : LoopContext) : String :=
  s!"Compiled {source.length} source characters, {context.count} loops"

/-- The code of a balanced source. A malformed one leaves no remark in the log. -/
def compile (source : String) : Except Malformed Compilation :=
  match nestingDepth source with
  | .error e => .error e
  | .ok _ =>
    let g := generate source
    .ok {
      assembly := g.text
      context := g.context
      remark := compileRemark source g.context }

/-! ## Compiling a stream into a sink

The generator writes to the sink as it goes along. Should it stop, what it has
written stays there. -/

/-- Why nothing was compiled. -/
inductive StreamError where
  | malformed (reason : Malformed)
  | unread (failure : ReadFailure)
  /-- The generator stopped in the middle of the program. -/
  | stopped (failure : LoopUnderflow)
  deriving DecidableEq, Repr

/-- The kinds of failures that a caller tells apart. -/
inductive StreamErrorKind where
  | malformed
  /-- An I/O error kept the source from being read. -/
  | unreadable
  /-- The stream had been closed. -/
  | closed
  | stopped
  deriving DecidableEq, Repr

namespace StreamError

/-- That the stream had been closed is said as it is; what else keeps a source
from being read is an I/O error to the user. -/
def kind : StreamError → StreamErrorKind
  | .malformed _ => .malformed
  | .unread (.closed _) => .closed
  | .unread _ => .unreadable
  | .stopped _ => .stopped

def message : StreamError → String
  | .malformed reason => reason.message
  | .unread (.closed overBytes) => (ReadFailure.closed overBytes).message
  | .unread _ => "An I/O error kept the source from being read"
  | .stopped failure => failure.message

end StreamError

/-- What compiling a stream leaves behind. -/
structure StreamOutcome where
  /-- Everything in the sink. -/
  sink : String
  /-- Remarks for the log. -/
  log : List String
  result : Except StreamError LoopContext
  deriving Repr

/-- Compiles what the stream still holds to the end of the sink. The generator
begins to write once the text has been read and found balanced. -/
def compileInto (sink : String) (stream : Source.Stream) : StreamOutcome :=
  match stream.readAll with
  | .error failure => ⟨sink, [], .error (.unread failure)⟩
  | .ok cs =>
    let source := String.ofList cs
    match nestingDepth source with
    | .error e => ⟨sink, [], .error (.malformed e)⟩
    | .ok _ =>
      let g := generate source
      match g.failure with
      | some failure => ⟨sink ++ g.text, [], .error (.stopped failure)⟩
      | none => ⟨sink ++ g.text, [compileRemark source g.context], .ok g.context⟩

end TapeMips
