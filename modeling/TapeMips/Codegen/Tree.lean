import TapeMips.Codegen.Block
import TapeMips.Source.Tree

/-!
# Code of trees

The code of a tree follows its shape: a loop takes the next number when it is
entered, and its body stands between the two blocks that carry that number. The
count of numbers given out so far runs through the tree from left to right; each
part receives it from the part before and hands it on.
-/

namespace TapeMips.Codegen

open Asm Source

mutual

/-- The code of a node, where `count` loops have been numbered before it, and the
count after it. -/
def nodeCode (count : Nat) : Node → List Line × Nat
  | .action a => (block a, count)
  | .comment _ => ([], count)
  | .loop body =>
    let id := count + 1
    let (lines, count) := treeCode id body
    (loopEntry (toString id) ++ lines ++ loopExit (toString id), count)

/-- The code of a sequence of nodes, and the count after it. -/
def treeCode (count : Nat) : List Node → List Line × Nat
  | [] => ([], count)
  | n :: rest =>
    let (lines, count) := nodeCode count n
    let (more, count) := treeCode count rest
    (lines ++ more, count)

end

end TapeMips.Codegen
