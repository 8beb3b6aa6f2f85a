import TapeMips.Command

/-!
# Programs as trees

Read with its brackets, a balanced source is a sequence of nodes: actions,
comment characters, and loops that hold a sequence of their own. Rendering
writes a sequence back, character by character; nothing is lost, because
comments are nodes too.
-/

namespace TapeMips.Source

/-- A character that is no command. -/
structure Comment where
  char : Char
  is_comment : Command.ofChar? char = none
  deriving DecidableEq, Repr

/-- A part of a program. -/
inductive Node where
  | action (action : Action)
  | comment (comment : Comment)
  | loop (body : List Node)

mutual

/-- The characters of a node. -/
def Node.render : Node → List Char
  | .action a => [a.symbol]
  | .comment c => [c.char]
  | .loop body => '[' :: Node.renderAll body ++ [']']

/-- The characters of a sequence of nodes. -/
def Node.renderAll : List Node → List Char
  | [] => []
  | n :: rest => n.render ++ Node.renderAll rest

end

mutual

/-- The number of loops in a node, itself included. -/
def Node.loopCount : Node → Nat
  | .action _ => 0
  | .comment _ => 0
  | .loop body => Node.loopCountAll body + 1

/-- The number of loops in a sequence of nodes. -/
def Node.loopCountAll : List Node → Nat
  | [] => 0
  | n :: rest => n.loopCount + Node.loopCountAll rest

end

mutual

/-- The largest number of loops in a node that lie inside each other, itself
included. -/
def Node.depth : Node → Nat
  | .action _ => 0
  | .comment _ => 0
  | .loop body => Node.depthAll body + 1

/-- The largest number of loops in a sequence of nodes that lie inside each other. -/
def Node.depthAll : List Node → Nat
  | [] => 0
  | n :: rest => max n.depth (Node.depthAll rest)

end

@[simp]
theorem Node.renderAll_append (xs ys : List Node) :
    Node.renderAll (xs ++ ys) = Node.renderAll xs ++ Node.renderAll ys := by
  induction xs with
  | nil => rfl
  | cons n rest ih => simp [Node.renderAll, ih]

end TapeMips.Source
