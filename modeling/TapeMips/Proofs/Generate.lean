import TapeMips.Codegen.Layout
import TapeMips.Codegen.Tree
import TapeMips.Compile
import TapeMips.Proofs.Partners

/-!
# What the generator writes

The generator keeps a stack of numbers, the trees and the layout know nothing of
one. Two statements bring them together.

Fed the characters of a tree, the generator writes the code of the tree and has
the stack that it had before (`feedAll?_renderAll`). The induction is over the
tree and for every stack and every count, because a body is read with the stack
of the loop around it.

Fed the characters before a position, it writes the blocks before that position
(`feedAll?_take`). Only the closing bracket has an argument in it: the characters
before it end with an opening bracket and a tree, and what the generator pushed
for that bracket is still on top of the stack, since the tree left it there. So
the number that is taken from the stack is the number of the partner.

A generator runs through whenever the depth does, and the two stop at the same
character, because the depth is the height of the stack.
-/

namespace TapeMips.Codegen

open Asm Source

namespace Generator

/-- The lines written so far, in the order in which they were written. -/
def lines (g : Generator) : List Line := g.written.reverse.flatten

@[simp]
theorem lines_write (g : Generator) (ls : List Line) :
    (g.write ls).lines = g.lines ++ ls := by
  rw [lines, write, List.reverse_cons, List.flatten_append, List.flatten_singleton]
  rfl

@[simp]
theorem openLoops_write (g : Generator) (ls : List Line) :
    (g.write ls).openLoops = g.openLoops := rfl

@[simp]
theorem context_write (g : Generator) (ls : List Line) :
    (g.write ls).context = g.context := rfl

/-- How the writes were cut does not show in the text. -/
theorem join_pieces (g : Generator) : String.join g.pieces = Line.textOf g.lines := by
  rw [pieces, Line.join_textOf]
  rfl

end Generator

/-- The block of a character that is no bracket. -/
def flatBlock (c : Char) : List Line :=
  match Command.ofChar? c with
  | some (.act a) => block a
  | _ => []

namespace Generator

theorem feed?_open (g : Generator) :
    g.feed? '[' = some { g.write (loopEntry (toString (g.context.count + 1))) with
      openLoops := (g.context.count + 1) :: g.openLoops
      context := g.context.enter } := rfl

theorem feed?_close_nil {g : Generator} (h : g.openLoops = []) :
    g.feed? ']' = none := by
  rw [feed?, ofChar?_close]
  simp only [h]

theorem feed?_close_cons {g : Generator} {id : Nat} {outer : List Nat}
    (h : g.openLoops = id :: outer) :
    g.feed? ']' = some { g.write (loopExit (toString id)) with
      openLoops := outer
      context := g.context.leave } := by
  rw [feed?, ofChar?_close]
  simp only [h]

theorem feed?_flat {c : Char} (hflat : IsFlat c) (g : Generator) :
    g.feed? c = some (g.write (flatBlock c)) := by
  rw [feed?, flatBlock]
  cases hc : Command.ofChar? c with
  | none => rfl
  | some k =>
      cases k with
      | act a => rfl
      | loopOpen => exact absurd hc hflat.not_loopOpen
      | loopClose => exact absurd hc hflat.not_loopClose

/-- Feeds characters one after the other, as long as none of them closes too much. -/
def feedAll? (g : Generator) (cs : List Char) : Option Generator := cs.foldlM feed? g

@[simp]
theorem feedAll?_nil (g : Generator) : g.feedAll? [] = some g := rfl

theorem feedAll?_cons (g : Generator) (c : Char) (cs : List Char) :
    g.feedAll? (c :: cs) = (g.feed? c).bind (·.feedAll? cs) := rfl

theorem feedAll?_append (g : Generator) (xs ys : List Char) :
    g.feedAll? (xs ++ ys) = (g.feedAll? xs).bind (·.feedAll? ys) := by
  rw [feedAll?, List.foldlM_append]
  rfl

/-- The depth is the height of the stack. -/
theorem depthAfter?_eq_map_feedAll? (g : Generator) (cs : List Char) :
    depthAfter? g.openLoops.length cs = (g.feedAll? cs).map (·.openLoops.length) := by
  induction cs generalizing g with
  | nil => rfl
  | cons c rest ih =>
      rw [feedAll?_cons]
      rcases char_cases c with rfl | rfl | hflat
      · rw [feed?_open, Option.bind_some, ← ih]
        rfl
      · cases hstack : g.openLoops with
        | nil =>
            rw [feed?_close_nil hstack]
            rfl
        | cons id outer =>
            rw [feed?_close_cons hstack, Option.bind_some, ← ih]
            rfl
      · rw [feed?_flat hflat, Option.bind_some, ← ih, depthAfter?_flat hflat,
          openLoops_write]

theorem count_of_feedAll? {g g' : Generator} {cs : List Char}
    (h : g.feedAll? cs = some g') :
    g'.context.count = g.context.count + cs.count '[' := by
  induction cs generalizing g with
  | nil =>
      rw [feedAll?_nil, Option.some.injEq] at h
      rw [h, List.count_nil, Nat.add_zero]
  | cons c rest ih =>
      rw [feedAll?_cons] at h
      obtain ⟨mid, hfeed, hrest⟩ := Option.bind_eq_some_iff.mp h
      rw [ih hrest]
      rcases char_cases c with rfl | rfl | hflat
      · rw [feed?_open, Option.some.injEq] at hfeed
        subst hfeed
        rw [List.count_cons_self]
        show g.context.count + 1 + _ = _
        omega
      · rw [List.count_cons_of_ne (by decide)]
        cases hstack : g.openLoops with
        | nil =>
            rw [feed?_close_nil hstack] at hfeed
            cases hfeed
        | cons id outer =>
            rw [feed?_close_cons hstack, Option.some.injEq] at hfeed
            subst hfeed
            rfl
      · rw [feed?_flat hflat, Option.some.injEq] at hfeed
        subst hfeed
        rw [List.count_cons_of_ne hflat.1, context_write]

/-- The depth that is counted is the height of the stack. -/
def WellCounted (g : Generator) : Prop := g.context.depth = g.openLoops.length

theorem WellCounted.feed? {g g' : Generator} {c : Char} (hg : g.WellCounted)
    (h : g.feed? c = some g') : g'.WellCounted := by
  rcases char_cases c with rfl | rfl | hflat
  · rw [feed?_open, Option.some.injEq] at h
    subst h
    show g.context.depth + 1 = (_ :: g.openLoops).length
    rw [List.length_cons, hg]
  · cases hstack : g.openLoops with
    | nil =>
        rw [feed?_close_nil hstack] at h
        cases h
    | cons id outer =>
        rw [feed?_close_cons hstack, Option.some.injEq] at h
        subst h
        show g.context.depth - 1 = outer.length
        rw [hg, hstack, List.length_cons, Nat.add_sub_cancel]
  · rw [feed?_flat hflat, Option.some.injEq] at h
    subst h
    exact hg

theorem WellCounted.feedAll? {g g' : Generator} {cs : List Char} (hg : g.WellCounted)
    (h : g.feedAll? cs = some g') : g'.WellCounted := by
  induction cs generalizing g with
  | nil =>
      rw [feedAll?_nil, Option.some.injEq] at h
      rwa [← h]
  | cons c rest ih =>
      rw [feedAll?_cons] at h
      obtain ⟨mid, hfeed, hrest⟩ := Option.bind_eq_some_iff.mp h
      exact ih (hg.feed? hfeed) hrest

theorem wellCounted_empty : WellCounted {} := rfl

/-- What is counted from the start: the height of the stack, and the opening
brackets. -/
theorem context_of_feedAll? {g : Generator} {cs : List Char}
    (h : Generator.feedAll? {} cs = some g) :
    g.context = ⟨g.openLoops.length, cs.count '['⟩ := by
  have hdepth : g.context.depth = g.openLoops.length := wellCounted_empty.feedAll? h
  have hcount := count_of_feedAll? h
  rw [show ({} : Generator).context.count = 0 from rfl, Nat.zero_add] at hcount
  rw [← hdepth, ← hcount]

end Generator

/-! ## Trees

The generator sees single characters and keeps a stack. Fed the text of a
tree, it leaves the stack as it was, and so the code of a text is that of its
tree. -/

theorem treeCode_nil (count : Nat) : treeCode count [] = ([], count) := by
  rw [treeCode]

theorem treeCode_action (count : Nat) (a : Action) (rest : List Node) :
    treeCode count (.action a :: rest) =
      (block a ++ (treeCode count rest).1, (treeCode count rest).2) := by
  rw [treeCode, nodeCode]

theorem treeCode_comment (count : Nat) (c : Comment) (rest : List Node) :
    treeCode count (.comment c :: rest) = treeCode count rest := by
  rw [treeCode, nodeCode]
  rfl

theorem treeCode_loop (count : Nat) (body rest : List Node) :
    treeCode count (.loop body :: rest) =
      (loopEntry (toString (count + 1)) ++ (treeCode (count + 1) body).1 ++
          loopExit (toString (count + 1)) ++
            (treeCode (treeCode (count + 1) body).2 rest).1,
        (treeCode (treeCode (count + 1) body).2 rest).2) := by
  rw [treeCode, nodeCode]

theorem treeCode_count (count : Nat) (t : List Node) :
    (treeCode count t).2 = count + Node.loopCountAll t := by
  induction t using Node.seqInduction generalizing count with
  | nil => rw [treeCode_nil, Node.loopCountAll, Nat.add_zero]
  | action a rest ih =>
      rw [treeCode_action, Node.loopCountAll, Node.loopCount, Nat.zero_add]
      exact ih count
  | comment c rest ih =>
      rw [treeCode_comment, Node.loopCountAll, Node.loopCount, Nat.zero_add]
      exact ih count
  | loop body rest ihb ih =>
      rw [treeCode_loop, Node.loopCountAll, Node.loopCount]
      show (treeCode (treeCode (count + 1) body).2 rest).2 = _
      rw [ih, ihb]
      omega

/-- Fed a tree, the generator writes its code and leaves the stack alone. -/
theorem feedAll?_renderAll (g : Generator) (t : List Node) :
    ∃ g', g.feedAll? (Node.renderAll t) = some g' ∧
      g'.lines = g.lines ++ (treeCode g.context.count t).1 ∧
      g'.openLoops = g.openLoops ∧
      g'.context.count = (treeCode g.context.count t).2 := by
  induction t using Node.seqInduction generalizing g with
  | nil =>
      exact ⟨g, rfl, by rw [treeCode_nil, List.append_nil], rfl, by rw [treeCode_nil]⟩
  | action a rest ih =>
      have hblock : flatBlock a.symbol = block a := by
        rw [flatBlock, ofChar?_symbol_action]
      obtain ⟨g', hfeed, hlines, hstack, hcount⟩ := ih (g.write (block a))
      refine ⟨g', ?_, ?_, hstack, ?_⟩
      · rw [Node.renderAll_action, Generator.feedAll?_cons,
          Generator.feed?_flat (isFlat_symbol a), hblock]
        exact hfeed
      · rw [hlines, treeCode_action, Generator.lines_write, Generator.context_write,
          List.append_assoc]
      · rw [hcount, treeCode_action, Generator.context_write]
  | comment c rest ih =>
      have hblock : flatBlock c.char = [] := by
        rw [flatBlock, c.is_comment]
      obtain ⟨g', hfeed, hlines, hstack, hcount⟩ := ih (g.write [])
      refine ⟨g', ?_, ?_, hstack, ?_⟩
      · rw [Node.renderAll_comment, Generator.feedAll?_cons,
          Generator.feed?_flat c.isFlat, hblock]
        exact hfeed
      · rw [hlines, treeCode_comment, Generator.lines_write, Generator.context_write,
          List.append_nil]
      · rw [hcount, treeCode_comment, Generator.context_write]
  | loop body rest ihb ih =>
      -- The bracket pushes its number, the body leaves the stack as it finds it,
      -- and so the closing bracket takes that number off again.
      let id := g.context.count + 1
      obtain ⟨inner, hbody, hbodyLines, hbodyStack, hbodyCount⟩ :=
        ihb { g.write (loopEntry (toString id)) with
          openLoops := id :: g.openLoops
          context := g.context.enter }
      obtain ⟨g', hfeed, hlines, hstack, hcount⟩ :=
        ih { inner.write (loopExit (toString id)) with
          openLoops := g.openLoops
          context := inner.context.leave }
      have hinner : inner.context.leave.count = (treeCode id body).2 := hbodyCount
      refine ⟨g', ?_, ?_, hstack, ?_⟩
      · rw [Node.renderAll_loop, Generator.feedAll?_cons, Generator.feed?_open,
          Option.bind_some, Generator.feedAll?_append, hbody, Option.bind_some,
          Generator.feedAll?_cons, Generator.feed?_close_cons hbodyStack]
        exact hfeed
      · rw [hlines, hinner, treeCode_loop]
        show (inner.write (loopExit (toString id))).lines ++ _ = _
        rw [Generator.lines_write, hbodyLines]
        show (g.write (loopEntry (toString id))).lines ++ _ ++ _ ++ _ = _
        rw [Generator.lines_write]
        simp only [List.append_assoc]
        rfl
      · rw [hcount, hinner, treeCode_loop]

/-! ## Positions

The code of a text is also the blocks of its positions, one behind the other,
where the block of a closing bracket has the number of its partner. This is
the form in which the layout of a program is stated. -/

theorem codeBefore_succ (cs : List Char) (n : Nat) :
    codeBefore cs (n + 1) = codeBefore cs n ++ blockAt cs n := by
  rw [codeBefore, List.range_succ, List.flatMap_append, List.flatMap_singleton]
  rfl

theorem blockAt_open {cs : List Char} {i : Nat} (h : cs[i]? = some '[') :
    blockAt cs i = loopEntry (toString (loopNumber cs i)) := by
  rw [blockAt, h]
  rfl

theorem blockAt_close {cs : List Char} {i j : Nat} (h : Partners cs i j) :
    blockAt cs j = loopExit (toString (loopNumber cs i)) := by
  rw [blockAt, h.getElem?_right, h.opening_eq]
  rfl

theorem blockAt_flat {cs : List Char} {n : Nat} {c : Char} (h : cs[n]? = some c)
    (hflat : IsFlat c) : blockAt cs n = flatBlock c := by
  rw [blockAt, h, Option.bind_some, flatBlock]
  cases hc : Command.ofChar? c with
  | none => rfl
  | some k =>
      cases k with
      | act a => rfl
      | loopOpen => exact absurd hc hflat.not_loopOpen
      | loopClose => exact absurd hc hflat.not_loopClose

/-- Behind an opening bracket and a tree, the number of that bracket is on top of
the stack. -/
theorem openLoops_behind_body {front : List Char} {body : List Node} {g : Generator}
    (h : Generator.feedAll? {} (front ++ '[' :: Node.renderAll body) = some g) :
    ∃ outer, g.openLoops = (front.count '[' + 1) :: outer := by
  rw [Generator.feedAll?_append] at h
  obtain ⟨mid, hmid, hrest⟩ := Option.bind_eq_some_iff.mp h
  rw [Generator.feedAll?_cons, Generator.feed?_open, Option.bind_some] at hrest
  obtain ⟨g', hfeed, -, hstack, -⟩ := feedAll?_renderAll _ body
  rw [hfeed, Option.some.injEq] at hrest
  rw [← hrest, hstack, Generator.context_of_feedAll? hmid]
  exact ⟨_, rfl⟩

theorem take_succ_of_getElem? {cs : List Char} {n : Nat} {c : Char}
    (h : cs[n]? = some c) : cs.take (n + 1) = cs.take n ++ [c] := by
  rw [List.take_add_one, h]
  rfl

/-- Fed the characters before a position, the generator writes the blocks before it. -/
theorem feedAll?_take {cs : List Char} {n : Nat} {g : Generator} (hn : n ≤ cs.length)
    (h : Generator.feedAll? {} (cs.take n) = some g) : g.lines = codeBefore cs n := by
  induction n generalizing g with
  | zero =>
      rw [List.take_zero, Generator.feedAll?_nil, Option.some.injEq] at h
      rw [← h]
      rfl
  | succ n ih =>
      obtain ⟨c, hc⟩ : ∃ c, cs[n]? = some c := ⟨cs[n], List.getElem?_eq_getElem hn⟩
      have hwhole := h
      rw [take_succ_of_getElem? hc, Generator.feedAll?_append] at h
      obtain ⟨mid, hmid, hlast⟩ := Option.bind_eq_some_iff.mp h
      rw [Generator.feedAll?_cons] at hlast
      obtain ⟨g', hfeed, hg⟩ := Option.bind_eq_some_iff.mp hlast
      rw [Generator.feedAll?_nil, Option.some.injEq] at hg
      subst hg
      have hlines := ih (Nat.le_of_succ_le hn) hmid
      rw [codeBefore_succ, ← hlines]
      rcases char_cases c with rfl | rfl | hflat
      · have hnumber : loopNumber cs n = mid.context.count + 1 := by
          rw [loopNumber, take_succ_of_getElem? hc, List.count_append,
            List.count_singleton_self, Generator.context_of_feedAll? hmid]
        rw [Generator.feed?_open, Option.some.injEq] at hfeed
        rw [← hfeed, blockAt_open hc, hnumber]
        exact Generator.lines_write mid _
      · -- The depth up to here exists, because the generator got here.
        have hdepth := Generator.depthAfter?_eq_map_feedAll? {} (cs.take (n + 1))
        rw [hwhole] at hdepth
        obtain ⟨i, hi⟩ := exists_partner_of_close hdepth hc
        rw [blockAt_close hi]
        obtain ⟨front, body, back, rfl, rfl, rfl⟩ := hi
        rw [Nat.add_assoc, List.take_length_add_append, Nat.add_comm,
          List.take_succ_cons, List.take_left] at hmid
        obtain ⟨outer, houter⟩ := openLoops_behind_body hmid
        rw [Generator.feed?_close_cons houter, Option.some.injEq] at hfeed
        rw [← hfeed, loopNumber_eq]
        exact Generator.lines_write mid _
      · rw [Generator.feed?_flat hflat, Option.some.injEq] at hfeed
        rw [← hfeed, blockAt_flat hc hflat, Generator.lines_write]

theorem finish_append {g g' : Generator} {xs : List Char} (h : g.feedAll? xs = some g')
    (ys : List Char) : g.finish (xs ++ ys) = g'.finish ys := by
  induction xs generalizing g with
  | nil =>
      rw [Generator.feedAll?_nil, Option.some.injEq] at h
      rw [h, List.nil_append]
  | cons c rest ih =>
      rw [Generator.feedAll?_cons] at h
      obtain ⟨mid, hfeed, hrest⟩ := Option.bind_eq_some_iff.mp h
      rw [List.cons_append, Generator.finish, hfeed]
      exact ih hrest

/-- A generator that gets to the end has written all of the code, each character
by itself. -/
theorem generate_of_depth {source : String} {d : Nat}
    (h : depthAfter? 0 source.toList = some d) :
    (generate source).text = Line.textOf (code source.toList) ∧
      (generate source).context = ⟨d, source.toList.count '['⟩ ∧
      (generate source).failure = none := by
  have hdepth := Generator.depthAfter?_eq_map_feedAll? {} source.toList
  rw [show ({} : Generator).openLoops.length = 0 from rfl, h] at hdepth
  obtain ⟨g, hg, hheight⟩ := Option.map_eq_some_iff.mp hdepth.symm
  have hlines := feedAll?_take (Nat.le_refl _) (by rwa [List.take_length])
  have hfinish := finish_append hg []
  rw [List.append_nil, Generator.finish] at hfinish
  rw [generate, hfinish]
  refine ⟨?_, ?_, rfl⟩
  · rw [Generation.text, Generator.join_pieces, Generator.lines_write, hlines, code]
  · rw [Generator.context_write, Generator.context_of_feedAll? hg, hheight]

theorem generate_of_unmatched {source : String} {front back : List Char}
    (hsplit : source.toList = front ++ ']' :: back)
    (h : depthAfter? 0 front = some 0) :
    (generate source).text = Line.textOf (codeBefore source.toList front.length) ∧
      (generate source).context = ⟨0, front.count '['⟩ ∧
      (generate source).failure = some .noOpenLoop := by
  have hdepth := Generator.depthAfter?_eq_map_feedAll? {} front
  rw [show ({} : Generator).openLoops.length = 0 from rfl, h] at hdepth
  obtain ⟨g, hg, hheight⟩ := Option.map_eq_some_iff.mp hdepth.symm
  have hlen : front.length ≤ source.toList.length := by
    rw [hsplit, List.length_append]
    omega
  have htake : source.toList.take front.length = front := by
    rw [hsplit, List.take_left]
  have hlines := feedAll?_take hlen (by rwa [htake])
  have hstuck := Generator.feed?_close_nil (List.length_eq_zero_iff.mp hheight)
  rw [generate, hsplit, finish_append hg, Generator.finish, hstuck, ← hsplit]
  refine ⟨?_, ?_, rfl⟩
  · rw [Generation.text, Generator.join_pieces, hlines]
  · rw [Generator.context_of_feedAll? hg, hheight]

/-- Compiling a balanced source gives all of its code, with no loop left open. -/
theorem compile_of_depth {source : String} (h : depthAfter? 0 source.toList = some 0) :
    compile source =
      .ok {
        assembly := Line.textOf (code source.toList)
        context := ⟨0, source.toList.count '['⟩
        remark := compileRemark source ⟨0, source.toList.count '['⟩ } := by
  have hbalanced := (isBalanced_iff_depth source).mpr h
  rw [compile]
  cases hdepth : nestingDepth source with
  | error e =>
      rw [isBalanced, hdepth] at hbalanced
      cases hbalanced
  | ok deepest =>
      obtain ⟨htext, hcontext, -⟩ := generate_of_depth h
      simp only [htext, hcontext]

theorem depth_of_compile {source : String} {c : Compilation}
    (h : compile source = .ok c) : depthAfter? 0 source.toList = some 0 := by
  rw [← isBalanced_iff_depth, isBalanced]
  rw [compile] at h
  cases hdepth : nestingDepth source with
  | ok deepest => rfl
  | error e =>
      rw [hdepth] at h
      cases h

/-- What is compiled is what the generator writes, and it writes all of it. -/
theorem generate_of_compile {source : String} {c : Compilation}
    (h : compile source = .ok c) :
    (generate source).text = c.assembly ∧ (generate source).failure = none := by
  have hdepth := depth_of_compile h
  obtain ⟨htext, -, hfailure⟩ := generate_of_depth hdepth
  rw [compile_of_depth hdepth, Except.ok.injEq] at h
  exact ⟨by rw [htext, ← h], hfailure⟩

/-- Every program has an end, so none is empty. -/
theorem assembly_ne_empty {source : String} {c : Compilation}
    (h : compile source = .ok c) : c.assembly ≠ "" := by
  rw [compile_of_depth (depth_of_compile h), Except.ok.injEq] at h
  rw [← h, code, Line.textOf_append]
  intro hempty
  have hlength := congrArg String.length hempty
  rw [String.length_append] at hlength
  have hexit : (Line.textOf programExit).length = 19 := by decide
  simp [hexit] at hlength

theorem treeCode_eq_codeBefore (t : List Node) :
    (treeCode 0 t).1 = codeBefore (Node.renderAll t) (Node.renderAll t).length := by
  obtain ⟨g, hfeed, hlines, -, -⟩ := feedAll?_renderAll {} t
  rw [← List.take_length (l := Node.renderAll t)] at hfeed
  rw [← feedAll?_take (Nat.le_refl _) hfeed, hlines]
  rfl

end TapeMips.Codegen
