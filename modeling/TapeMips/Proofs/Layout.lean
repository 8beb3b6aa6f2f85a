import TapeMips.Proofs.Assemble
import TapeMips.Proofs.Generate

/-!
# The code of a source, assembled

The blocks of a source are plain lines, so they can be read back, and no label
occurs in them twice: the two labels of a loop differ from each other, and the
decimal numerals of two numbers differ too. So the code of a balanced source
assembles (`assemble_code`), and what stands where is read off the blocks. The
block of a character begins at the index `offset`; a loop's first label stands at
the end of the block of its opening bracket and its second at the end of the block
of the closing one.
-/

namespace TapeMips.Codegen

open Asm Source

theorem toString_injective {m n : Nat} (h : toString m = toString n) : m = n := by
  have hdigits : Nat.toDigits 10 m = Nat.toDigits 10 n := by
    rw [← Nat.toList_repr, ← Nat.toList_repr]
    exact congrArg String.toList h
  rw [← @Nat.ofDigitChars_ten_toDigits m, hdigits, Nat.ofDigitChars_ten_toDigits]

theorem isDigit_of_mem_toString {n : Nat} {c : Char} (h : c ∈ (toString n).toList) :
    c.isDigit = true := by
  refine Nat.isDigit_of_mem_toDigits (n := n) (b := 10) (by decide) (by decide) ?_
  rw [← Nat.toList_repr]
  exact h

theorem isLabelName_append {stem : String} (h : IsLabelName stem) (n : Nat) :
    IsLabelName (stem ++ toString n) := by
  obtain ⟨⟨first, hfirst, hstart⟩, hchars⟩ := h
  rw [IsLabelName, String.toList_append]
  refine ⟨⟨first, ?_, hstart⟩, fun c hc => ?_⟩
  · rw [List.head?_append, hfirst]
    rfl
  · rcases List.mem_append.mp hc with hc | hc
    · exact hchars c hc
    · rw [isLabelChar, Char.isAlphanum, isDigit_of_mem_toString hc, Bool.or_true,
        Bool.true_or]

theorem isLabelName_loopStart (n : Nat) : IsLabelName (loopStart (toString n)) :=
  isLabelName_append (by decide) n

theorem isLabelName_loopEnd (n : Nat) : IsLabelName (loopEnd (toString n)) :=
  isLabelName_append (by decide) n

theorem append_left_injective {stem x y : String} (h : stem ++ x = stem ++ y) :
    x = y := by
  have hlist := congrArg String.toList h
  rw [String.toList_append, String.toList_append] at hlist
  exact String.toList_injective (List.append_cancel_left hlist)

theorem loopStart_injective {m n : Nat}
    (h : loopStart (toString m) = loopStart (toString n)) : m = n :=
  toString_injective (append_left_injective h)

theorem loopEnd_injective {m n : Nat}
    (h : loopEnd (toString m) = loopEnd (toString n)) : m = n :=
  toString_injective (append_left_injective h)

/-- The two labels of a loop differ in their sixth characters, whatever the
numbers are. -/
theorem loopStart_ne_loopEnd (x y : String) : loopStart x ≠ loopEnd y := by
  intro h
  have hlist := congrArg (fun s => s.toList[5]?) h
  simp only [loopStart, loopEnd, String.toList_append] at hlist
  cases hlist

theorem isPlain_block (a : Action) : ∀ line ∈ block a, line.IsPlain := by
  cases a <;> decide

/-- The block of a bracket is plain if the names in it are. -/
theorem isPlain_bracket {mnemonic target name : String}
    (hmnemonic : IsLabelName mnemonic) (htarget : IsLabelName target)
    (hname : IsLabelName name) :
    ∀ line ∈ [loadCell "$s0", .op ⟨mnemonic, ["$s0", "$0", target]⟩, .label name],
      line.IsPlain := by
  intro line hline
  simp only [List.mem_cons, List.not_mem_nil, or_false] at hline
  rcases hline with rfl | rfl | rfl
  · decide
  · refine ⟨hmnemonic, fun x hx => ?_⟩
    simp only [List.mem_cons, List.not_mem_nil, or_false] at hx
    rcases hx with rfl | rfl | rfl
    · decide
    · decide
    · exact htarget.isPlain
  · exact hname

theorem isPlain_blockAt (cs : List Char) (n : Nat) :
    ∀ line ∈ blockAt cs n, line.IsPlain := by
  rw [blockAt]
  split
  · exact isPlain_block _
  · exact isPlain_bracket (by decide) (isLabelName_loopEnd _) (isLabelName_loopStart _)
  · exact isPlain_bracket (by decide) (isLabelName_loopStart _) (isLabelName_loopEnd _)
  · simp

theorem isPlain_codeBefore (cs : List Char) (n : Nat) :
    ∀ line ∈ codeBefore cs n, line.IsPlain := by
  intro line hline
  obtain ⟨i, _, hi⟩ := List.mem_flatMap.mp hline
  exact isPlain_blockAt cs i line hi

theorem isTidy_code (cs : List Char) : ∀ line ∈ code cs, line.IsTidy := by
  intro line hline
  have hexit : ∀ line ∈ programExit, line.IsPlain := by decide
  rcases List.mem_append.mp hline with hline | hline
  · exact (isPlain_codeBefore cs cs.length line hline).isTidy
  · exact (hexit line hline).isTidy

theorem length_operations_block (a : Action) :
    (operations (block a)).length = (Command.act a).size := by
  cases a <;> rfl

theorem length_operations_blockAt {cs : List Char} {n : Nat} {c : Char}
    (h : cs[n]? = some c) : (operations (blockAt cs n)).length = blockSize c := by
  rw [blockAt, h, Option.bind_some, blockSize]
  cases Command.ofChar? c with
  | none => rfl
  | some k =>
      cases k with
      | act a => exact length_operations_block a
      | loopOpen => rfl
      | loopClose => rfl

theorem offset_succ {cs : List Char} {n : Nat} {c : Char} (h : cs[n]? = some c) :
    offset cs (n + 1) = offset cs n + blockSize c := by
  rw [offset, take_succ_of_getElem? h, List.map_append, List.sum_append,
    List.map_singleton, List.sum_singleton]
  rfl

theorem length_operations_codeBefore {cs : List Char} {n : Nat} (hn : n ≤ cs.length) :
    (operations (codeBefore cs n)).length = offset cs n := by
  induction n with
  | zero => rfl
  | succ n ih =>
      have hc : cs[n]? = some cs[n] := List.getElem?_eq_getElem hn
      rw [codeBefore_succ, operations_append, List.length_append,
        ih (Nat.le_of_succ_le hn), length_operations_blockAt hc, offset_succ hc]

theorem offset_mono {cs : List Char} {m n : Nat} (h : m ≤ n) :
    offset cs m ≤ offset cs n := by
  obtain ⟨k, rfl⟩ := Nat.exists_eq_add_of_le h
  rw [offset, offset, List.take_add, List.map_append, List.sum_append]
  omega

theorem codeBefore_isPrefix (cs : List Char) {m n : Nat} (h : m ≤ n) :
    ∃ back, codeBefore cs n = codeBefore cs m ++ back := by
  induction h with
  | refl => exact ⟨[], (List.append_nil _).symm⟩
  | @step n _ ih =>
      obtain ⟨back, hback⟩ := ih
      exact ⟨back ++ blockAt cs n, by rw [codeBefore_succ, hback, List.append_assoc]⟩

theorem code_split {cs : List Char} {n : Nat} (hn : n < cs.length) :
    ∃ back, code cs = codeBefore cs n ++ (blockAt cs n ++ back) := by
  obtain ⟨back, hback⟩ := codeBefore_isPrefix cs (Nat.succ_le_of_lt hn)
  refine ⟨back ++ programExit, ?_⟩
  rw [code, hback, codeBefore_succ, List.append_assoc, List.append_assoc]

/-! ## No label occurs twice

The block of a position has a label only if a bracket is there, and the label
tells the number of its loop and which of the two brackets it is. So a label
tells its position, and positions do not repeat. -/

theorem labelNames_block (a : Action) : labelNames (block a) = [] := by
  cases a <;> rfl

theorem labelNames_flatBlock (c : Char) : labelNames (flatBlock c) = [] := by
  rw [flatBlock]
  split
  · exact labelNames_block _
  · rfl

theorem labelNames_blockAt_left {cs : List Char} {i j : Nat} (h : Partners cs i j) :
    labelNames (blockAt cs i) = [loopStart (toString (loopNumber cs i))] := by
  rw [blockAt_open h.getElem?_left]
  rfl

theorem labelNames_blockAt_right {cs : List Char} {i j : Nat} (h : Partners cs i j) :
    labelNames (blockAt cs j) = [loopEnd (toString (loopNumber cs i))] := by
  rw [blockAt_close h]
  rfl

/-- A label in the block of a character tells which bracket of which loop it is. -/
theorem partners_of_mem_labelNames {cs : List Char} (hcs : depthAfter? 0 cs = some 0)
    {n : Nat} {name : String} (h : name ∈ labelNames (blockAt cs n)) :
    (∃ j, Partners cs n j ∧ name = loopStart (toString (loopNumber cs n))) ∨
      ∃ i, Partners cs i n ∧ name = loopEnd (toString (loopNumber cs i)) := by
  cases hc : cs[n]? with
  | none =>
      rw [blockAt, hc] at h
      cases h
  | some c =>
      rcases place_cases hcs hc with ⟨j, hj⟩ | ⟨i, hi⟩ | hflat
      · rw [labelNames_blockAt_left hj] at h
        exact Or.inl ⟨j, hj, List.mem_singleton.mp h⟩
      · rw [labelNames_blockAt_right hi] at h
        exact Or.inr ⟨i, hi, List.mem_singleton.mp h⟩
      · rw [blockAt_flat hc hflat, labelNames_flatBlock] at h
        cases h

theorem eq_of_mem_labelNames {cs : List Char} (hcs : depthAfter? 0 cs = some 0)
    {m n : Nat} {name : String} (hm : name ∈ labelNames (blockAt cs m))
    (hn : name ∈ labelNames (blockAt cs n)) : m = n := by
  rcases partners_of_mem_labelNames hcs hm with ⟨j, hj, hname⟩ | ⟨i, hi, hname⟩
  · rcases partners_of_mem_labelNames hcs hn with ⟨j', hj', hname'⟩ | ⟨i', hi', hname'⟩
    · exact loopNumber_inj hj.getElem?_left hj'.getElem?_left
        (loopStart_injective (hname.symm.trans hname'))
    · exact absurd (hname.symm.trans hname') (loopStart_ne_loopEnd _ _)
  · rcases partners_of_mem_labelNames hcs hn with ⟨j', hj', hname'⟩ | ⟨i', hi', hname'⟩
    · exact absurd (hname'.symm.trans hname) (loopStart_ne_loopEnd _ _)
    · have heq : i = i' := loopNumber_inj hi.getElem?_left hi'.getElem?_left
        (loopEnd_injective (hname.symm.trans hname'))
      rw [← hi.closing_eq, ← hi'.closing_eq, heq]

theorem mem_labelNames_codeBefore {cs : List Char} {n : Nat} {name : String} :
    name ∈ labelNames (codeBefore cs n) ↔
      ∃ i < n, name ∈ labelNames (blockAt cs i) := by
  induction n with
  | zero =>
      constructor
      · intro h
        cases h
      · rintro ⟨i, hi, _⟩
        omega
  | succ n ih =>
      rw [codeBefore_succ, labelNames_append, List.mem_append, ih]
      constructor
      · rintro (⟨i, hi, hname⟩ | hname)
        · exact ⟨i, Nat.lt_succ_of_lt hi, hname⟩
        · exact ⟨n, Nat.lt_succ_self n, hname⟩
      · rintro ⟨i, hi, hname⟩
        rcases Nat.lt_succ_iff_lt_or_eq.mp hi with hlt | rfl
        · exact Or.inl ⟨i, hlt, hname⟩
        · exact Or.inr hname

theorem labelNames_code (cs : List Char) :
    labelNames (code cs) = labelNames (codeBefore cs cs.length) := by
  rw [code, labelNames_append]
  exact List.append_nil _

theorem nodup_labelNames_code {cs : List Char} (hcs : depthAfter? 0 cs = some 0) :
    (labelNames (code cs)).Nodup := by
  rw [labelNames_code]
  generalize cs.length = n
  induction n with
  | zero => exact List.nodup_nil
  | succ n ih =>
      rw [codeBefore_succ, labelNames_append, List.nodup_append]
      refine ⟨ih, ?_, ?_⟩
      · rw [blockAt]
        split
        · rw [labelNames_block]
          exact List.nodup_nil
        · exact List.pairwise_singleton _ _
        · exact List.pairwise_singleton _ _
        · exact List.nodup_nil
      · -- A name on both sides would place one block at two positions.
        intro name hname name' hname' heq
        subst heq
        obtain ⟨i, hi, hmem⟩ := mem_labelNames_codeBefore.mp hname
        exact absurd (eq_of_mem_labelNames hcs hmem hname') (by omega)

theorem assemble_code {cs : List Char} (hcs : depthAfter? 0 cs = some 0) :
    assemble (Line.textOf (code cs)) = .ok (Program.ofLines (code cs)) :=
  assemble_textOf (isTidy_code cs) (nodup_labelNames_code hcs)

theorem standsAt_blockAt {cs : List Char} {n : Nat} (hn : n < cs.length) :
    (Program.ofLines (code cs)).StandsAt (offset cs n)
      (operations (blockAt cs n)) := by
  obtain ⟨back, hback⟩ := code_split hn
  rw [← length_operations_codeBefore (Nat.le_of_lt hn)]
  exact ofLines_standsAt (by rw [hback, operations_append, operations_append])

theorem standsAt_programExit (cs : List Char) :
    (Program.ofLines (code cs)).StandsAt (offset cs cs.length)
      (operations programExit) := by
  rw [← length_operations_codeBefore (Nat.le_refl _)]
  have hcode : operations (code cs) =
      operations (codeBefore cs cs.length) ++ (operations programExit ++ []) := by
    rw [code, operations_append, List.append_nil]
  exact ofLines_standsAt hcode

/-! ## Where the labels of a loop stand

A label stands behind the two operations of its block. With no label twice in
a program, the table has just this place for it. -/

theorem target?_of_blockAt {cs : List Char} (hcs : depthAfter? 0 cs = some 0) {n : Nat}
    (hn : n < cs.length) {x y : Operation} {name : String}
    (hblock : blockAt cs n = [.op x, .op y, .label name]) :
    (Program.ofLines (code cs)).target? name = some (offset cs n + 2) := by
  obtain ⟨back, hback⟩ := code_split hn
  have hsplit : code cs = (codeBefore cs n ++ [.op x, .op y]) ++
      .label name :: back := by
    rw [hback, hblock, List.append_assoc]
    rfl
  rw [ofLines_target? hsplit (nodup_labelNames_code hcs), operations_append,
    List.length_append, length_operations_codeBefore (Nat.le_of_lt hn)]
  rfl

theorem target?_loopStart {cs : List Char} (hcs : depthAfter? 0 cs = some 0)
    {i j : Nat} (h : Partners cs i j) :
    (Program.ofLines (code cs)).target? (loopStart (toString (loopNumber cs i))) =
      some (offset cs i + 2) :=
  target?_of_blockAt hcs (Nat.lt_trans h.lt h.lt_length) (blockAt_open h.getElem?_left)

theorem target?_loopEnd {cs : List Char} (hcs : depthAfter? 0 cs = some 0) {i j : Nat}
    (h : Partners cs i j) :
    (Program.ofLines (code cs)).target? (loopEnd (toString (loopNumber cs i))) =
      some (offset cs j + 2) :=
  target?_of_blockAt hcs h.lt_length (blockAt_close h)

theorem mem_labelNames_code {cs : List Char} (hcs : depthAfter? 0 cs = some 0)
    {name : String} :
    name ∈ labelNames (code cs) ↔
      ∃ k, 1 ≤ k ∧ k ≤ cs.count '[' ∧
        (name = loopStart (toString k) ∨ name = loopEnd (toString k)) := by
  rw [labelNames_code, mem_labelNames_codeBefore]
  constructor
  · rintro ⟨n, _, hname⟩
    rcases partners_of_mem_labelNames hcs hname with ⟨j, hj, rfl⟩ | ⟨i, hi, rfl⟩
    · exact ⟨_, loopNumber_pos hj.getElem?_left, loopNumber_le cs n, Or.inl rfl⟩
    · exact ⟨_, loopNumber_pos hi.getElem?_left, loopNumber_le cs i, Or.inr rfl⟩
  · rintro ⟨k, hpos, hle, hname⟩
    obtain ⟨i, hi, rfl⟩ := exists_loopNumber hpos hle
    obtain ⟨j, hj⟩ := exists_partner_of_open hcs hi
    rcases hname with rfl | rfl
    · refine ⟨i, Nat.lt_trans hj.lt hj.lt_length, ?_⟩
      rw [labelNames_blockAt_left hj]
      exact List.mem_singleton_self _
    · refine ⟨j, hj.lt_length, ?_⟩
      rw [labelNames_blockAt_right hj]
      exact List.mem_singleton_self _

theorem length_labelNames_blockAt {cs : List Char} {n : Nat} {c : Char}
    (h : cs[n]? = some c) :
    (labelNames (blockAt cs n)).length = [c].count '[' + [c].count ']' := by
  rcases char_cases c with rfl | rfl | hflat
  · rw [blockAt_open h]
    rfl
  · rw [blockAt, h]
    rfl
  · rw [blockAt_flat h hflat, labelNames_flatBlock, List.count_cons_of_ne hflat.1,
      List.count_cons_of_ne hflat.2]
    rfl

/-- Every bracket defines one label. -/
theorem length_labelNames_codeBefore {cs : List Char} {n : Nat} (hn : n ≤ cs.length) :
    (labelNames (codeBefore cs n)).length = (cs.take n).count '[' +
      (cs.take n).count ']' := by
  induction n with
  | zero => rfl
  | succ n ih =>
      have hc : cs[n]? = some cs[n] := List.getElem?_eq_getElem hn
      rw [codeBefore_succ, labelNames_append, List.length_append,
        ih (Nat.le_of_succ_le hn), length_labelNames_blockAt hc,
        take_succ_of_getElem? hc, List.count_append, List.count_append]
      omega

theorem length_labelNames_code {cs : List Char} (hcs : depthAfter? 0 cs = some 0) :
    (labelNames (code cs)).length = 2 * cs.count '[' := by
  have hcount := count_of_depthAfter? hcs
  rw [labelNames_code, length_labelNames_codeBefore (Nat.le_refl _), List.take_length]
  omega

theorem branch_label_blockAt {cs : List Char} (hcs : depthAfter? 0 cs = some 0)
    {n : Nat} {o : Operation} (ho : o ∈ operations (blockAt cs n))
    (hbranch : o.mnemonic = "beq" ∨ o.mnemonic = "bne") :
    ∃ x y label, o.operands = [x, y, label] ∧ label ∈ labelNames (code cs) := by
  have hblock : ∀ a, ∀ o ∈ operations (block a), ¬ (o.mnemonic = "beq" ∨
      o.mnemonic = "bne") := by
    intro a
    cases a <;> decide
  have hload : ¬ ("lbu" = "beq" ∨ "lbu" = "bne") := by decide
  cases hc : cs[n]? with
  | none =>
      rw [blockAt, hc] at ho
      cases ho
  | some c =>
      rcases place_cases hcs hc with ⟨j, hj⟩ | ⟨i, hi⟩ | hflat
      · rw [blockAt_open hj.getElem?_left] at ho
        rcases List.mem_cons.mp ho with rfl | ho
        · exact absurd hbranch hload
        · rw [List.mem_singleton.mp ho]
          exact ⟨_, _, _, rfl, (mem_labelNames_code hcs).mpr
            ⟨_, loopNumber_pos hj.getElem?_left, loopNumber_le cs n, Or.inr rfl⟩⟩
      · rw [blockAt_close hi] at ho
        rcases List.mem_cons.mp ho with rfl | ho
        · exact absurd hbranch hload
        · rw [List.mem_singleton.mp ho]
          exact ⟨_, _, _, rfl, (mem_labelNames_code hcs).mpr
            ⟨_, loopNumber_pos hi.getElem?_left, loopNumber_le cs i, Or.inl rfl⟩⟩
      · rw [blockAt_flat hc hflat, flatBlock] at ho
        split at ho
        · exact absurd hbranch (hblock _ o ho)
        · cases ho

theorem branch_label {cs : List Char} (hcs : depthAfter? 0 cs = some 0) {o : Operation}
    (ho : o ∈ operations (code cs))
    (hbranch : o.mnemonic = "beq" ∨ o.mnemonic = "bne") :
    ∃ x y label, o.operands = [x, y, label] ∧ label ∈ labelNames (code cs) := by
  have hexit : ∀ o ∈ operations programExit, ¬ (o.mnemonic = "beq" ∨
      o.mnemonic = "bne") := by
    decide
  rw [code, operations_append, List.mem_append, codeBefore, operations_flatMap,
    List.mem_flatMap] at ho
  rcases ho with ⟨n, _, ho⟩ | ho
  · exact branch_label_blockAt hcs ho hbranch
  · exact absurd hbranch (hexit o ho)

/-- The labels of two loops, the second of which begins later: nested or one
behind the other. -/
theorem offset_nested {cs : List Char} {i j i' j' : Nat} (h : Partners cs i j)
    (h' : Partners cs i' j') (hlt : i < i') :
    (offset cs i + 2 ≤ offset cs i' ∧ offset cs j' + 2 ≤ offset cs j) ∨
      offset cs j + 2 ≤ offset cs i' := by
  have hstep : ∀ {m n : Nat} {c : Char}, cs[m]? = some c → blockSize c = 2 → m < n →
      offset cs m + 2 ≤ offset cs n := by
    intro m n c hc hsize hmn
    rw [← hsize, ← offset_succ hc]
    exact offset_mono hmn
  rcases h.nested_or_disjoint h' hlt with hin | hout
  · exact Or.inl ⟨hstep h.getElem?_left rfl hlt, hstep h'.getElem?_right rfl hin⟩
  · exact Or.inr (hstep h.getElem?_right rfl hout)

/-- What the assembled program of a source looks like. -/
structure LaidOut (cs : List Char) (p : Program) : Prop where
  /-- The operations are those of the blocks of all characters, in order, and the
  two that end the program. -/
  operations_eq : p.code.toList.map (·.toOperation) =
    (List.range cs.length).flatMap (fun n => operations (blockAt cs n)) ++
      [⟨"li", ["$v0", "10"]⟩, ⟨"syscall", []⟩]
  /-- A block has as many operations as its command takes. -/
  block_size : ∀ n c, cs[n]? = some c →
    (operations (blockAt cs n)).length = blockSize c
  /-- The first label of the `k`-th loop stands just behind the branch of its
  opening bracket, the second just behind the branch of the bracket that closes
  it. -/
  loop_labels : ∀ k, 1 ≤ k → k ≤ cs.count '[' → ∃ i j, Partners cs i j ∧
    loopNumber cs i = k ∧
    p.code[offset cs i + 1]?.map (·.toOperation) =
      some ⟨"beq", ["$s0", "$0", loopEnd (toString k)]⟩ ∧
    p.target? (loopStart (toString k)) = some (offset cs i + 2) ∧
    p.code[offset cs j + 1]?.map (·.toOperation) =
      some ⟨"bne", ["$s0", "$0", loopStart (toString k)]⟩ ∧
    p.target? (loopEnd (toString k)) = some (offset cs j + 2)
  /-- There are no other labels, and none is there twice. -/
  label_iff : ∀ name, (p.target? name).isSome = true ↔ ∃ k, 1 ≤ k ∧ k ≤ cs.count '[' ∧
    (name = loopStart (toString k) ∨ name = loopEnd (toString k))
  label_count : p.labels.size = 2 * cs.count '['
  /-- Every branch goes to a label. -/
  branch_target : ∀ i ∈ p.code.toList, i.mnemonic = "beq" ∨ i.mnemonic = "bne" →
    ∃ x y label, i.operands = [x, y, label] ∧ (p.target? label).isSome = true
  /-- Behind every label there is an instruction. -/
  label_lt : ∀ l ∈ p.labels.toList, l.2 < p.code.size
  /-- Of two loops the later one lies inside the other or behind it. -/
  nested : ∀ k l s e s' e', 1 ≤ k → k < l → l ≤ cs.count '[' →
    p.target? (loopStart (toString k)) = some s →
    p.target? (loopEnd (toString k)) = some e →
    p.target? (loopStart (toString l)) = some s' →
    p.target? (loopEnd (toString l)) = some e' →
    (s + 2 ≤ s' ∧ e' + 2 ≤ e) ∨ e + 2 ≤ s'

theorem exists_loop_labels {cs : List Char} (hcs : depthAfter? 0 cs = some 0) {k : Nat}
    (hpos : 1 ≤ k) (hle : k ≤ cs.count '[') :
    ∃ i j, Partners cs i j ∧ loopNumber cs i = k ∧
      (Program.ofLines (code cs)).code[offset cs i + 1]?.map (·.toOperation) =
        some ⟨"beq", ["$s0", "$0", loopEnd (toString k)]⟩ ∧
      (Program.ofLines (code cs)).target? (loopStart (toString k)) =
        some (offset cs i + 2) ∧
      (Program.ofLines (code cs)).code[offset cs j + 1]?.map (·.toOperation) =
        some ⟨"bne", ["$s0", "$0", loopStart (toString k)]⟩ ∧
      (Program.ofLines (code cs)).target? (loopEnd (toString k)) =
        some (offset cs j + 2) := by
  obtain ⟨i, hi, rfl⟩ := exists_loopNumber hpos hle
  obtain ⟨j, hj⟩ := exists_partner_of_open hcs hi
  have hat := standsAt_blockAt (Nat.lt_trans hj.lt hj.lt_length)
  have hat' := standsAt_blockAt hj.lt_length
  rw [blockAt_open hi] at hat
  rw [blockAt_close hj] at hat'
  obtain ⟨_, hentry⟩ := hat 1 _ rfl
  obtain ⟨_, hexit⟩ := hat' 1 _ rfl
  refine ⟨i, j, hj, rfl, ?_, target?_loopStart hcs hj, ?_, target?_loopEnd hcs hj⟩
  · exact congrArg (Option.map (·.toOperation)) hentry
  · exact congrArg (Option.map (·.toOperation)) hexit

theorem laidOut_code {cs : List Char} (hcs : depthAfter? 0 cs = some 0) :
    LaidOut cs (Program.ofLines (code cs)) where
  operations_eq := by
    rw [Program.ofLines, map_instructions, code, operations_append, codeBefore,
      operations_flatMap]
    rfl
  block_size := fun _ _ h => length_operations_blockAt h
  loop_labels := fun _ hpos hle => exists_loop_labels hcs hpos hle
  label_iff :=
    fun name => (ofLines_isSome_target? _ name).trans (mem_labelNames_code hcs)
  label_count := by
    rw [← length_labelNames_code hcs, ← map_labelTable 0, List.length_map]
    rfl
  branch_target := by
    intro i hi hbranch
    have ho : i.toOperation ∈ operations (code cs) := by
      rw [← map_instructions 1]
      exact List.mem_map.mpr ⟨i, hi, rfl⟩
    obtain ⟨x, y, label, hoperands, hlabel⟩ := branch_label hcs ho hbranch
    exact ⟨x, y, label, hoperands, (ofLines_isSome_target? _ label).mpr hlabel⟩
  label_lt := by
    intro l hl
    have hexit : labelTable (0 + (operations (codeBefore cs cs.length)).length)
        programExit = [] :=
      rfl
    have hfront : l ∈ labelTable 0 (codeBefore cs cs.length) := by
      rwa [Program.ofLines, code, labelTable_append, hexit, List.append_nil] at hl
    have hle := le_of_mem_labelTable l hfront
    rw [Program.ofLines, List.size_toArray, length_instructions, code,
      operations_append, List.length_append]
    show _ < _ + 2
    omega
  nested := by
    intro k l s e s' e' hpos hlt hle hs he hs' he'
    obtain ⟨i, j, h, hk, _, hstart, _, hend⟩ :=
      exists_loop_labels hcs hpos (Nat.le_trans (Nat.le_of_lt hlt) hle)
    obtain ⟨i', j', h', hl, _, hstart', _, hend'⟩ :=
      exists_loop_labels hcs (Nat.le_trans hpos (Nat.le_of_lt hlt)) hle
    rw [hstart, Option.some.injEq] at hs
    rw [hend, Option.some.injEq] at he
    rw [hstart', Option.some.injEq] at hs'
    rw [hend', Option.some.injEq] at he'
    have hii' : i < i' := by
      rcases Nat.lt_trichotomy i i' with hii' | rfl | hii'
      · exact hii'
      · omega
      · have := loopNumber_lt hii' h.getElem?_left
        omega
    rcases offset_nested h h' hii' with ⟨hfirst, hsecond⟩ | hout
    · exact Or.inl ⟨by omega, by omega⟩
    · exact Or.inr (by omega)

/-- A balanced source compiles, and what it compiles to assembles to a program
that is laid out as the source says. -/
theorem compile_laidOut {source : String} (hbalanced : isBalanced source = true) :
    ∃ c p, compile source = .ok c ∧ assemble c.assembly = .ok p ∧
      LaidOut source.toList p := by
  have hdepth := (isBalanced_iff_depth source).mp hbalanced
  exact ⟨_, _, compile_of_depth hdepth, assemble_code hdepth, laidOut_code hdepth⟩

/-- Three loops, one inside another and one behind both. -/
theorem compile_laidOut_nested :
    isBalanced "+[>[-]<],[.]" = true ∧ ∃ c p, compile "+[>[-]<],[.]" = .ok c ∧
      assemble c.assembly = .ok p ∧ LaidOut "+[>[-]<],[.]".toList p :=
  ⟨by decide, compile_laidOut (by decide)⟩

end TapeMips.Codegen
