import TapeMips.Command

/-!
# Matching brackets

A bracket finds its partner by counting: between the two every loop that is
begun is also ended, so the partner is the first bracket of the other kind that
nothing in between accounts for. Read forwards a loop is entered by `[` and left
by `]`; read backwards it is the other way round, and one count serves both.

In a source whose brackets do not match, a bracket may have no partner. The
count then runs to the end of the text, and the position it gives means nothing.
-/

namespace TapeMips.Source

/-- The number of characters before the bracket `leave` that ends the loop in
which the text begins, where `depth` further loops are open inside it. -/
def loopSpan (enter leave : Command) : (depth : Nat) → List Char → Nat
  | _, [] => 0
  | depth, c :: rest =>
    if Command.ofChar? c = some enter then loopSpan enter leave (depth + 1) rest + 1
    else if Command.ofChar? c = some leave then
      match depth with
      | 0 => 0
      | depth + 1 => loopSpan enter leave depth rest + 1
    else loopSpan enter leave depth rest + 1

/-- Where the loop that begins at this position ends. -/
def closing (cs : List Char) (position : Nat) : Nat :=
  position + 1 + loopSpan .loopOpen .loopClose 0 (cs.drop (position + 1))

/-- Where the loop that ends at this position begins. -/
def opening (cs : List Char) (position : Nat) : Nat :=
  position - 1 - loopSpan .loopClose .loopOpen 0 (cs.take position).reverse

/-- The number of the loop that begins at this position: loops are counted from
one, in the order in which they begin. -/
def loopNumber (cs : List Char) (position : Nat) : Nat :=
  (cs.take (position + 1)).count '['

end TapeMips.Source
