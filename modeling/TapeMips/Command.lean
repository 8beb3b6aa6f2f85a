/-!
# The eight commands of the tape language

A source is a text; eight of its characters are commands and every other
character is a comment. Six commands act on the tape by themselves, the two
brackets only mean something together, and the types keep the two kinds apart:
an `Action` has a fixed block of code, a bracket has none.
-/

namespace TapeMips

/-- A command that stands for itself. -/
inductive Action where
  /-- Move the pointer one cell up. -/
  | right
  /-- Move the pointer one cell down. -/
  | left
  /-- Add one to the current cell. -/
  | increment
  /-- Take one from the current cell. -/
  | decrement
  /-- Write the current cell as a character. -/
  | print
  /-- Read the next input into the current cell. -/
  | read
  deriving DecidableEq, Repr

/-- A command of the language: an action, or one half of a loop. -/
inductive Command where
  | act (action : Action)
  | loopOpen
  | loopClose
  deriving DecidableEq, Repr

/-- The character an action is written as. -/
def Action.symbol : Action → Char
  | .right => '>'
  | .left => '<'
  | .increment => '+'
  | .decrement => '-'
  | .print => '.'
  | .read => ','

namespace Command

/-- The character a command is written as. -/
def symbol : Command → Char
  | .act a => a.symbol
  | .loopOpen => '['
  | .loopClose => ']'

/-- The command a character stands for, `none` for a comment. -/
def ofChar? : Char → Option Command
  | '>' => some (.act .right)
  | '<' => some (.act .left)
  | '+' => some (.act .increment)
  | '-' => some (.act .decrement)
  | '.' => some (.act .print)
  | ',' => some (.act .read)
  | '[' => some .loopOpen
  | ']' => some .loopClose
  | _ => none

/-- The command a whole text stands for: only a text of one character can be one. -/
def ofText? (text : String) : Option Command :=
  match text.toList with
  | [c] => ofChar? c
  | _ => none

/-- All commands, in the order in which they are usually listed. -/
def all : List Command :=
  [.act .right, .act .left, .act .increment, .act .decrement, .act .print, .act .read,
    .loopOpen, .loopClose]

@[simp]
theorem ofChar?_symbol (c : Command) : ofChar? c.symbol = some c := by
  cases c with
  | act a => cases a <;> rfl
  | loopOpen => rfl
  | loopClose => rfl

/-- A character stands for a command exactly if it is the one the command is
written as. -/
theorem ofChar?_eq_some_iff {c : Char} {k : Command} :
    ofChar? c = some k ↔ c = k.symbol := by
  constructor
  · intro h
    unfold ofChar? at h
    split at h <;> simp only [Option.some.injEq, reduceCtorEq] at h <;> subst h <;> rfl
  · rintro rfl
    exact ofChar?_symbol k

end Command

end TapeMips
