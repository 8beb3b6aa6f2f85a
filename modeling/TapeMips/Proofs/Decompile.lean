import TapeMips.Proofs.Layout

/-!
# Reading the commands back

Every block holds exactly one operation that no other kind of block holds: the
two moves are the only operations on `$sp`, adding to `$s0` and taking from it
each belong to one action, only printing loads `$a0`, only reading asks for
service 12, and the two branches belong to the two brackets. So the commands of
a program can be read off its assembly one operation at a time, without finding
out first where a block begins, and the numbers in the labels never matter.

The other way round the generator passes over comments without a trace. So the
text of a program and the sequence of its commands determine each other.
-/

namespace TapeMips.Source

/-- The characters that are commands, in their order. -/
def symbols (cs : List Char) : List Char := cs.filter (· ∈ "><+-.,[]".toList)

theorem mem_symbols_iff (c : Char) :
    c ∈ "><+-.,[]".toList ↔ ∃ k : Command, c = k.symbol := by
  constructor
  · intro h
    simp only [String.reduceToList, List.mem_cons, List.not_mem_nil, or_false] at h
    rcases h with rfl | rfl | rfl | rfl | rfl | rfl | rfl | rfl
    · exact ⟨.act .right, rfl⟩
    · exact ⟨.act .left, rfl⟩
    · exact ⟨.act .increment, rfl⟩
    · exact ⟨.act .decrement, rfl⟩
    · exact ⟨.act .print, rfl⟩
    · exact ⟨.act .read, rfl⟩
    · exact ⟨.loopOpen, rfl⟩
    · exact ⟨.loopClose, rfl⟩
  · rintro ⟨k, rfl⟩
    cases k with
    | act a => cases a <;> decide
    | loopOpen => decide
    | loopClose => decide

theorem ofChar?_eq_none_iff (c : Char) :
    Command.ofChar? c = none ↔ c ∉ "><+-.,[]".toList := by
  rw [mem_symbols_iff, Option.eq_none_iff_forall_ne_some]
  simp only [ne_eq, Command.ofChar?_eq_some_iff, not_exists]

theorem symbols_eq_map (cs : List Char) :
    symbols cs = (cs.filterMap Command.ofChar?).map Command.symbol := by
  induction cs with
  | nil => rfl
  | cons c rest ih =>
      rw [symbols] at ih ⊢
      cases hc : Command.ofChar? c with
      | none =>
          have hnot := (ofChar?_eq_none_iff c).mp hc
          rw [List.filter_cons_of_neg (by simpa using hnot),
            List.filterMap_cons_none hc, ih]
      | some k =>
          obtain rfl := Command.ofChar?_eq_some_iff.mp hc
          have hmem := (mem_symbols_iff k.symbol).mpr ⟨k, rfl⟩
          rw [List.filter_cons_of_pos (by simpa using hmem),
            List.filterMap_cons_some hc, ih, List.map_cons]

end TapeMips.Source

namespace TapeMips.Codegen

open Asm Source

/-- The command whose block an operation gives away. -/
def commandOf? (o : Operation) : Option Command :=
  match o.mnemonic, o.operands with
  | "addi", "$sp" :: _ => some (.act .right)
  | "subi", "$sp" :: _ => some (.act .left)
  | "addi", "$s0" :: _ => some (.act .increment)
  | "subi", "$s0" :: _ => some (.act .decrement)
  | "lbu", "$a0" :: _ => some (.act .print)
  | "li", ["$v0", "12"] => some (.act .read)
  | "beq", _ => some .loopOpen
  | "bne", _ => some .loopClose
  | _, _ => none

/-- The commands from which an assembly text was compiled. -/
def decompile (assembly : String) : List Command :=
  (Text.lines assembly.toList).filterMap fun line => (readLine line).2.bind commandOf?

theorem decompile_textOf {ls : List Line} (h : ∀ line ∈ ls, line.IsTidy) :
    decompile (Line.textOf ls) = (operations ls).filterMap commandOf? := by
  rw [decompile, lines_textOf h]
  induction ls with
  | nil => rfl
  | cons line rest ih =>
      have hline := readLine_text (h line (by simp))
      have hrest := ih fun l hl => h l (by simp [hl])
      rw [List.map_cons, List.filterMap_cons, hline]
      cases line with
      | label name => exact hrest
      | op o =>
          simp only [Line.meaning, Option.bind_some, operations, List.filterMap_cons]
          rw [hrest]

theorem commandOf?_block (a : Action) :
    (operations (block a)).filterMap commandOf? = [.act a] := by
  cases a <;> rfl

theorem commandOf?_blockAt {cs : List Char} {n : Nat} {c : Char}
    (h : cs[n]? = some c) :
    (operations (blockAt cs n)).filterMap commandOf? = (Command.ofChar? c).toList := by
  rw [blockAt, h, Option.bind_some]
  cases Command.ofChar? c with
  | none => rfl
  | some k =>
      cases k with
      | act a => exact commandOf?_block a
      | loopOpen => rfl
      | loopClose => rfl

theorem commandOf?_codeBefore {cs : List Char} {n : Nat} (hn : n ≤ cs.length) :
    (operations (codeBefore cs n)).filterMap commandOf? =
      (cs.take n).filterMap Command.ofChar? := by
  induction n with
  | zero => rfl
  | succ n ih =>
      have hc : cs[n]? = some cs[n] := List.getElem?_eq_getElem hn
      rw [codeBefore_succ, operations_append, List.filterMap_append, ih (by omega),
        commandOf?_blockAt hc, take_succ_of_getElem? hc, List.filterMap_append]
      cases h : Command.ofChar? cs[n] <;> simp [h]

/-- The code of a source tells its commands, balanced or not. -/
theorem decompile_code (cs : List Char) :
    decompile (Line.textOf (code cs)) = cs.filterMap Command.ofChar? := by
  have hexit : (operations programExit).filterMap commandOf? = [] := rfl
  rw [decompile_textOf (isTidy_code cs), code, operations_append,
    List.filterMap_append, hexit, List.append_nil,
    commandOf?_codeBefore (Nat.le_refl _), List.take_length]

/-- Generators that differ at most in how their writes were cut. -/
structure Generator.Alike (g g' : Generator) : Prop where
  openLoops : g.openLoops = g'.openLoops
  context : g.context = g'.context
  lines : g.lines = g'.lines

theorem Generator.Alike.write {g g' : Generator} (h : g.Alike g') (ls : List Line) :
    (g.write ls).Alike (g'.write ls) where
  openLoops := h.openLoops
  context := h.context
  lines := by rw [lines_write, lines_write, h.lines]

theorem Generator.Alike.feed? {g g' : Generator} (h : g.Alike g') (c : Char) :
    (g.feed? c = none ∧ g'.feed? c = none) ∨
      ∃ k k', g.feed? c = some k ∧ g'.feed? c = some k' ∧ k.Alike k' := by
  rcases char_cases c with rfl | rfl | hflat
  · refine Or.inr ⟨_, _, feed?_open g, feed?_open g', ?_⟩
    have hwrite := h.write (loopEntry (toString (g.context.count + 1)))
    rw [← h.context, ← h.openLoops]
    exact ⟨rfl, rfl, hwrite.lines⟩
  · cases hstack : g.openLoops with
    | nil =>
        exact Or.inl ⟨feed?_close_nil hstack, feed?_close_nil (h.openLoops ▸ hstack)⟩
    | cons id outer =>
        refine Or.inr ⟨_, _, feed?_close_cons hstack,
          feed?_close_cons (h.openLoops ▸ hstack), ?_⟩
        rw [← h.context]
        exact ⟨rfl, rfl, (h.write (loopExit (toString id))).lines⟩
  · exact Or.inr ⟨_, _, feed?_flat hflat g, feed?_flat hflat g', h.write (flatBlock c)⟩

/-- Runs of the generator that leave the same but for how their writes were cut. -/
structure Generation.Alike (r r' : Generation) : Prop where
  text : r.text = r'.text
  context : r.context = r'.context
  failure : r.failure = r'.failure

theorem Generator.Alike.finish_symbols {g g' : Generator} (h : g.Alike g')
    (cs : List Char) : (g.finish (symbols cs)).Alike (g'.finish cs) := by
  have htext {k k' : Generator} (hk : k.Alike k') :
      String.join k.pieces = String.join k'.pieces := by
    rw [join_pieces, join_pieces, hk.lines]
  induction cs generalizing g g' with
  | nil => exact ⟨htext (h.write programExit), h.context, rfl⟩
  | cons c rest ih =>
      rw [symbols] at ih ⊢
      by_cases hc : c ∈ "><+-.,[]".toList
      · rw [List.filter_cons_of_pos (by simpa using hc), Generator.finish,
          Generator.finish]
        rcases h.feed? c with ⟨hg, hg'⟩ | ⟨k, k', hg, hg', hk⟩
        · rw [hg, hg']
          exact ⟨htext h, h.context, rfl⟩
        · rw [hg, hg']
          exact ih hk
      · -- A comment is an empty write on one side, and no write on the other.
        have hnone := (ofChar?_eq_none_iff c).mpr hc
        have hfeed : g'.feed? c = some (g'.write []) := by rw [Generator.feed?, hnone]
        rw [List.filter_cons_of_neg (by simpa using hc), Generator.finish, hfeed]
        exact ih ⟨h.openLoops, h.context,
          by rw [lines_write, List.append_nil, h.lines]⟩

theorem generate_symbols (s : String) :
    (Generator.finish {} (symbols s.toList)).Alike (generate s) :=
  Generator.Alike.finish_symbols ⟨rfl, rfl, rfl⟩ s.toList

/-- Programs with the same commands compile to the same; only the remark may count
other characters. -/
theorem compile_congr {s t : String} (hs : depthAfter? 0 s.toList = some 0)
    (ht : depthAfter? 0 t.toList = some 0) (h : symbols s.toList = symbols t.toList) :
    ∃ c d, compile s = .ok c ∧ compile t = .ok d ∧
      c.assembly = d.assembly ∧ c.context = d.context := by
  have hsame := generate_symbols s
  rw [h] at hsame
  have htext := hsame.text.symm.trans (generate_symbols t).text
  have hcontext := hsame.context.symm.trans (generate_symbols t).context
  rw [(generate_of_depth hs).1, (generate_of_depth ht).1] at htext
  rw [(generate_of_depth hs).2.1, (generate_of_depth ht).2.1] at hcontext
  exact ⟨_, _, compile_of_depth hs, compile_of_depth ht, htext, hcontext⟩

/-- Two programs have the same text exactly if they have the same commands, and
the commands can be read off the text. -/
theorem compile_eq_iff_symbols {s t : String} (hs : isBalanced s = true)
    (ht : isBalanced t = true) :
    ∃ c d, compile s = .ok c ∧ compile t = .ok d ∧
      (decompile c.assembly).map Command.symbol = symbols s.toList ∧
      (c.assembly = d.assembly ↔ symbols s.toList = symbols t.toList) := by
  have hs := (isBalanced_iff_depth s).mp hs
  have ht := (isBalanced_iff_depth t).mp ht
  refine ⟨_, _, compile_of_depth hs, compile_of_depth ht, ?_, ?_, ?_⟩
  · rw [decompile_code, symbols_eq_map]
  · intro htext
    have hcommands := congrArg decompile htext
    rw [decompile_code, decompile_code] at hcommands
    rw [symbols_eq_map, symbols_eq_map, hcommands]
  · intro hsymbols
    obtain ⟨c, d, hc, hd, htext, -⟩ := compile_congr hs ht hsymbols
    rw [compile_of_depth hs, Except.ok.injEq] at hc
    rw [compile_of_depth ht, Except.ok.injEq] at hd
    rwa [← hc, ← hd] at htext

/-- Comments make no difference, and the order of two commands does. -/
theorem compile_eq_iff_symbols_comments :
    isBalanced "+[>-]," = true ∧ isBalanced "a+\t[> -\n],!" = true ∧
      ∃ c d, compile "+[>-]," = .ok c ∧ compile "a+\t[> -\n],!" = .ok d ∧
        (decompile c.assembly).map Command.symbol = symbols "+[>-],".toList ∧
        (c.assembly = d.assembly ↔
          symbols "+[>-],".toList = symbols "a+\t[> -\n],!".toList) :=
  ⟨by decide, by decide, compile_eq_iff_symbols (by decide) (by decide)⟩

end TapeMips.Codegen
