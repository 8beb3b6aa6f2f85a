import TapeMips.Proofs.Layout

/-!
# Three readings of a source

A source is read by three means that share no state. The validator counts open
loops, the generator keeps their numbers on a stack, and the code of a tree is
found by recursion over its shape. They agree.

On every source the validator and the generator stop at the same character for
the same reason: the validator's answer says which of the three cases of
`ScanVerdict` holds, and in each the generator is known. A balanced source is
moreover the text of exactly one tree, and the generator writes the code of that
tree (`treeCode_eq_codeBefore`).

Every program ends with the two lines that end it, and the first of them stands
nowhere before. That is a matter of looking at the blocks. The only lines that
are not known letter by letter are the labels and branches of loops, and these do
not name the register that the line loads.
-/

namespace TapeMips.Codegen

open Asm Source

/-- The line with which a program begins to end, as it is written. -/
def exitLine : List Char := "li $v0, 10".toList

theorem not_exitLine_of_notMem {l : List Char} (h : 'v' ∉ l) : ¬ exitLine <:+: l := by
  intro hin
  exact h (hin.subset (by decide))

theorem not_exitLine_block (a : Action) :
    ∀ line ∈ block a, ¬ exitLine <:+: line.text.toList := by
  cases a <;> decide +kernel

theorem notMem_append_toString {stem : String} (h : 'v' ∉ stem.toList) (n : Nat) :
    'v' ∉ (stem ++ toString n).toList := by
  intro hmem
  rw [String.toList_append, List.mem_append] at hmem
  rcases hmem with hmem | hmem
  · exact h hmem
  · exact absurd (isDigit_of_mem_toString hmem) (by decide)

theorem text_branch (mnemonic label : String) :
    (Line.op ⟨mnemonic, ["$s0", "$0", label]⟩).text.toList =
      mnemonic.toList ++ " $s0, $0, ".toList ++ label.toList := by
  rw [text_op_cons, joined_cons_cons, joined_cons_cons, joined_singleton]
  simp

theorem not_exitLine_bracket {mnemonic target name : String}
    (hmnemonic : 'v' ∉ mnemonic.toList) (htarget : 'v' ∉ target.toList)
    (hname : 'v' ∉ name.toList) :
    ∀ line ∈ [loadCell "$s0", .op ⟨mnemonic, ["$s0", "$0", target]⟩, .label name],
      ¬ exitLine <:+: line.text.toList := by
  intro line hline
  refine not_exitLine_of_notMem ?_
  simp only [List.mem_cons, List.not_mem_nil, or_false] at hline
  rcases hline with rfl | rfl | rfl
  · decide
  · rw [text_branch]
    simp [hmnemonic, htarget]
  · simp [Line.text, hname]

theorem not_exitLine_codeBefore (cs : List Char) (n : Nat) :
    ∀ line ∈ codeBefore cs n, ¬ exitLine <:+: line.text.toList := by
  intro line hline
  obtain ⟨i, _, hi⟩ := List.mem_flatMap.mp hline
  rw [blockAt] at hi
  split at hi
  · exact not_exitLine_block _ line hi
  · exact not_exitLine_bracket (by decide) (notMem_append_toString (by decide) _)
      (notMem_append_toString (by decide) _) line hi
  · exact not_exitLine_bracket (by decide) (notMem_append_toString (by decide) _)
      (notMem_append_toString (by decide) _) line hi
  · cases hi

/-- The text of a program ends with the two lines that end it, and no line before
holds the first of them. -/
structure EndsOnce (text : String) (body : List Line) : Prop where
  text_eq : text = Line.textOf body ++ "li $v0, 10\nsyscall\n"
  lines_eq : Text.lines text.toList =
    body.map (·.text.toList) ++ ["li $v0, 10".toList, "syscall".toList]
  once : ∀ line ∈ body, ¬ "li $v0, 10".toList <:+: line.text.toList

theorem endsOnce_code (cs : List Char) :
    EndsOnce (Line.textOf (code cs)) (codeBefore cs cs.length) where
  text_eq := by
    rw [code, Line.textOf_append]
    rfl
  lines_eq := by
    rw [lines_textOf (isTidy_code cs), code, List.map_append]
    rfl
  once := not_exitLine_codeBefore cs cs.length

/-- At the end of a source the generator has written the code of all of it. -/
theorem generate_whole {source : String} {d : Nat}
    (hd : depthAfter? 0 source.toList = some d) :
    (generate source).failure = none ∧ (generate source).context.depth = d ∧
      d + source.toList.count ']' = source.toList.count '[' ∧
      (generate source).context.count = source.toList.count '[' ∧
      EndsOnce (generate source).text
        (codeBefore source.toList source.toList.length) := by
  have hcount := count_of_depthAfter? hd
  obtain ⟨htext, hcontext, hfailure⟩ := generate_of_depth hd
  rw [htext, hcontext]
  exact ⟨hfailure, rfl, by simpa using hcount, rfl, endsOnce_code _⟩

/-- Validator and generator agree on every source. They stop at the same closing
bracket, with the blocks before it written; and where the generator gets to the
end of the source, the depth it reports is what the validator judges by. -/
theorem nestingDepth_agrees_with_generate (source : String) :
    ((∃ deepest, nestingDepth source = .ok deepest) ↔
      (generate source).failure = none ∧ (generate source).context.depth = 0) ∧
    ((∃ position, nestingDepth source = .error (.unclosedOpen position)) ↔
      (generate source).failure = none ∧ 0 < (generate source).context.depth) ∧
    ((∃ position, nestingDepth source = .error (.unmatchedClose position)) ↔
      (generate source).failure = some .noOpenLoop) ∧
    (∀ position, nestingDepth source = .error (.unmatchedClose position) →
      source.toList[position]? = some ']' ∧
      (generate source).text = Line.textOf (codeBefore source.toList position)) ∧
    ((generate source).failure = none →
      (generate source).context.depth + source.toList.count ']' =
        source.toList.count '[' ∧
      (generate source).context.count = source.toList.count '[' ∧
      EndsOnce (generate source).text
        (codeBefore source.toList source.toList.length)) := by
  rw [nestingDepth]
  rcases scanVerdict {} 0 source.toList with
    ⟨k, hd, hs⟩ | ⟨d, p, hd, hs⟩ | ⟨xs, ys, hcs, hd, hs⟩
  · obtain ⟨hfailure, hdepth, hcounts⟩ := generate_whole hd
    rw [hfailure, hdepth, hs]
    exact ⟨by simp, by simp, by simp, by simp, fun _ => hcounts⟩
  · obtain ⟨hfailure, hdepth, hcounts⟩ := generate_whole hd
    rw [hfailure, hdepth, hs]
    exact ⟨by simp, by simp, by simp, by simp, fun _ => hcounts⟩
  · obtain ⟨htext, -, hfailure⟩ := generate_of_unmatched hcs hd
    rw [htext, hfailure, hs]
    refine ⟨by simp, by simp, by simp, fun position hposition => ?_, by simp⟩
    have heq : xs.length = position := by simpa using hposition
    subst heq
    exact ⟨by simp [hcs], rfl⟩

/-- At a bracket too many the generator has written what stands before it. -/
theorem nestingDepth_agrees_with_generate_unmatched :
    nestingDepth "+[>]]-" = .error (.unmatchedClose 4) ∧
      (generate "+[>]]-").text = Line.textOf (codeBefore "+[>]]-".toList 4) :=
  ⟨by decide, ((nestingDepth_agrees_with_generate "+[>]]-").2.2.2.1 4 (by decide)).2⟩

theorem loopCountAll_eq_count (t : List Node) :
    Node.loopCountAll t = (Node.renderAll t).count '[' := by
  obtain ⟨g, hfeed, -, -, hnumbers⟩ := feedAll?_renderAll {} t
  have hcount := Generator.count_of_feedAll? hfeed
  have htree : g.context.count = 0 + Node.loopCountAll t :=
    hnumbers.trans (treeCode_count 0 t)
  have hstart : ({} : Generator).context.count = 0 := rfl
  omega

theorem isBalanced_iff_existsUnique (source : String) :
    isBalanced source = true ↔ ∃! t, source.toList = Node.renderAll t := by
  rw [isBalanced_iff_depth, depthAfter?_eq_zero_iff]
  constructor
  · rintro ⟨t, ht⟩
    exact ⟨t, ht, fun t' ht' => renderAll_injective (ht'.symm.trans ht)⟩
  · rintro ⟨t, ht, _⟩
    exact ⟨t, ht⟩

/-- The loops of a source are numbered from one to `count` in the order in which
they begin, and the two blocks of a loop carry its number. -/
structure LoopsNumbered (cs : List Char) (count : Nat) : Prop where
  entry : ∀ i, cs[i]? = some '[' → 1 ≤ loopNumber cs i ∧ loopNumber cs i ≤ count ∧
    blockAt cs i = loopEntry (toString (loopNumber cs i))
  exit : ∀ j, cs[j]? = some ']' → ∃ i, Partners cs i j ∧
    blockAt cs j = loopExit (toString (loopNumber cs i))
  increasing : ∀ i j, i < j → cs[j]? = some '[' → loopNumber cs i < loopNumber cs j
  onto : ∀ k, 1 ≤ k → k ≤ count → ∃ i, cs[i]? = some '[' ∧ loopNumber cs i = k

theorem loopsNumbered_of_depth {cs : List Char} (hcs : depthAfter? 0 cs = some 0) :
    LoopsNumbered cs (cs.count '[') where
  entry := fun i hi => ⟨loopNumber_pos hi, loopNumber_le cs i, blockAt_open hi⟩
  exit := by
    intro j hj
    obtain ⟨d, hd⟩ := exists_depthAfter?_take hcs (j + 1)
    obtain ⟨i, hi⟩ := exists_partner_of_close hd hj
    exact ⟨i, hi, blockAt_close hi⟩
  increasing := fun _ _ hlt hj => loopNumber_lt hlt hj
  onto := fun _ hpos hle => exists_loopNumber hpos hle

/-- The balanced sources are the texts of trees, each of one tree, and compiling
the text of a tree gives what the recursion over the tree gives, followed by the
end of the program. -/
theorem compile_renderAll :
    (∀ source, isBalanced source = true ↔ ∃! t, source.toList = Node.renderAll t) ∧
    ∀ t : List Node,
      compile (String.ofList (Node.renderAll t)) =
        .ok {
          assembly := Line.textOf (treeCode 0 t).1 ++ Line.textOf programExit
          context := ⟨0, Node.loopCountAll t⟩
          remark :=
            compileRemark (String.ofList (Node.renderAll t))
              ⟨0, Node.loopCountAll t⟩ } ∧
      EndsOnce (Line.textOf (treeCode 0 t).1 ++ Line.textOf programExit)
        (treeCode 0 t).1 ∧
      (treeCode 0 t).2 = Node.loopCountAll t ∧
      (treeCode 0 t).1 = codeBefore (Node.renderAll t) (Node.renderAll t).length ∧
      LoopsNumbered (Node.renderAll t) (Node.loopCountAll t) := by
  refine ⟨isBalanced_iff_existsUnique, fun t => ?_⟩
  have hlist : (String.ofList (Node.renderAll t)).toList = Node.renderAll t :=
    String.toList_ofList
  have hdepth := depthAfter?_renderAll 0 t
  have hcompile : compile (String.ofList (Node.renderAll t)) = _ :=
    compile_of_depth (by rw [hlist, hdepth])
  have htext : Line.textOf (code (Node.renderAll t)) =
      Line.textOf (treeCode 0 t).1 ++ Line.textOf programExit := by
    rw [code, Line.textOf_append, treeCode_eq_codeBefore]
  rw [hlist, ← loopCountAll_eq_count, htext] at hcompile
  refine ⟨hcompile, ?_, ?_, treeCode_eq_codeBefore t, ?_⟩
  · rw [← htext, treeCode_eq_codeBefore]
    exact endsOnce_code _
  · rw [treeCode_count, Nat.zero_add]
  · rw [loopCountAll_eq_count]
    exact loopsNumbered_of_depth hdepth

end TapeMips.Codegen
