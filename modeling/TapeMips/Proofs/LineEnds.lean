import TapeMips.Proofs.Decompile
import TapeMips.Text.Layout

/-!
# What unifying line ends does to a source

Reading a file turns each of the three kinds of line end into a line feed. Line
ends are comments, so a program keeps its commands and with them its code; but a
carriage return that goes away with its line feed moves everything behind it one
place forward, and the positions in the validator's complaints move with it.

The argument is about places in the text, not about the pass. A complaint is made
at a bracket that splits the text (`Fault`): nothing is open before an unmatched
bracket, nor before the outermost unclosed one, and what stands behind the latter
never closes it. A bracket is no line feed, so the text can be unified in front of
it and behind it separately, and both parts keep their depths.
-/

namespace TapeMips.Source

/-- What a complaint says about the text: the bracket splits it in this way. -/
inductive Fault (cs : List Char) : Malformed → Prop where
  | unmatched (front back : List Char) (split : cs = front ++ ']' :: back)
      (depth : depthAfter? 0 front = some 0) : Fault cs (.unmatchedClose front.length)
  | unclosed (front back : List Char) (d : Nat) (split : cs = front ++ '[' :: back)
      (depth : depthAfter? 0 front = some 0) (behind : depthAfter? 0 back = some d) :
      Fault cs (.unclosedOpen front.length)

/-- A text that leaves loops open has a first bracket that it never closes. -/
theorem exists_outermost {cs : List Char} {d : Nat} (h : Opens (d + 1) cs) :
    ∃ front back, cs = front ++ '[' :: back ∧ depthAfter? 0 front = some 0 ∧
      depthAfter? 0 back = some d := by
  induction d generalizing cs with
  | zero =>
      cases h with
      | body hfront t =>
          cases hfront with
          | tree t' =>
              exact ⟨_, _, rfl, depthAfter?_renderAll 0 t', depthAfter?_renderAll 0 t⟩
  | succ d ih =>
      cases h with
      | body hfront t =>
          obtain ⟨front, back, rfl, hdepth, hbehind⟩ := ih hfront
          refine ⟨front, back ++ '[' :: Node.renderAll t, by simp, hdepth, ?_⟩
          rw [depthAfter?_append, hbehind, Option.bind_some, depthAfter?_open,
            depthAfter?_renderAll]

/-- The pass gets through a text that closes nothing too many. -/
theorem scan_append {xs : List Char} {n : Nesting} {d : Nat}
    (h : depthAfter? n.depth xs = some d) (position : Nat) :
    ∃ n' : Nesting, n'.depth = d ∧
      ∀ ys, n.scan position (xs ++ ys) = n'.scan (position + xs.length) ys := by
  induction xs generalizing n position with
  | nil =>
      rw [depthAfter?_nil, Option.some.injEq] at h
      exact ⟨n, h, fun ys => rfl⟩
  | cons c rest ih =>
      have hlen : ∀ k, k + 1 + rest.length = k + (c :: rest).length := by simp; omega
      rcases char_cases c with rfl | rfl | hflat
      · obtain ⟨n', hd, hn'⟩ := ih (n := n.enter position) h (position + 1)
        exact ⟨n', hd, fun ys => by rw [← hlen, ← hn']; rfl⟩
      · have hopen : n.depth ≠ 0 := by
          intro hzero
          rw [hzero] at h
          cases h
        rw [depthAfter?, ofChar?_close] at h
        obtain ⟨n', hd, hn'⟩ :=
          ih (n := { n with depth := n.depth - 1 }) (by rwa [if_neg hopen] at h)
            (position + 1)
        exact ⟨n', hd,
          fun ys => by rw [← hlen, ← hn', List.cons_append, scan_close hopen]⟩
      · rw [depthAfter?_flat hflat] at h
        obtain ⟨n', hd, hn'⟩ := ih h (position + 1)
        exact ⟨n', hd,
          fun ys => by rw [← hlen, ← hn', List.cons_append, scan_flat hflat]⟩

/-- While the outermost loop stays open the pass remembers where it began. The
depth inside it is one less than the depth of the pass. -/
theorem scan_behind_outermost {cs : List Char} {n : Nesting} {k d : Nat}
    (hn : n.depth = k + 1) (h : depthAfter? k cs = some d) (position : Nat) :
    n.scan position cs = .error (.unclosedOpen n.outermost) := by
  induction cs generalizing n k position with
  | nil => rw [Nesting.scan, if_neg (by omega)]
  | cons c rest ih =>
      rcases char_cases c with rfl | rfl | hflat
      · have henter : (n.enter position).outermost = n.outermost := if_neg (by omega)
        rw [← henter]
        exact ih (n := n.enter position) (by rw [Nesting.enter, hn]) h (position + 1)
      · cases k with
        | zero => cases h
        | succ k =>
            rw [scan_close (by omega)]
            exact ih (n := { n with depth := n.depth - 1 }) (by simp [hn]) h
              (position + 1)
      · rw [depthAfter?_flat hflat] at h
        rw [scan_flat hflat]
        exact ih hn h (position + 1)

theorem Fault.scan {cs : List Char} {e : Malformed} (h : Fault cs e) :
    Nesting.scan {} 0 cs = .error e := by
  cases h with
  | unmatched front back split depth =>
      obtain ⟨n, hd, hn⟩ := scan_append (n := {}) depth 0
      rw [split, hn, Nesting.scan, ofChar?_close, Nat.zero_add]
      exact if_pos hd
  | unclosed front back d split depth behind =>
      obtain ⟨n, hd, hn⟩ := scan_append (n := {}) depth 0
      have houter : (n.enter front.length).outermost = front.length := if_pos hd
      have hscan :=
        scan_behind_outermost (n := n.enter front.length)
          (by rw [Nesting.enter, hd]) behind (front.length + 1)
      rw [houter] at hscan
      rw [split, hn, Nat.zero_add]
      exact hscan

/-- The complaints of the validator are exactly the faults of the text. -/
theorem nestingDepth_eq_error_iff (source : String) (e : Malformed) :
    nestingDepth source = .error e ↔ Fault source.toList e := by
  rw [nestingDepth]
  constructor
  · intro h
    rcases scanVerdict {} 0 source.toList with
      ⟨k, hd, hs⟩ | ⟨d, p, hd, hs⟩ | ⟨xs, ys, hcs, hd, hs⟩
    · rw [hs] at h
      cases h
    · obtain ⟨front, back, hsplit, hfront, hback⟩ :=
        exists_outermost (opens_of_depthAfter? hd)
      have hfault := Fault.unclosed front back d hsplit hfront hback
      rw [hfault.scan] at h
      cases h
      exact hfault
    · have hfault := Fault.unmatched xs ys hcs hd
      rw [hfault.scan] at h
      cases h
      exact hfault
  · exact Fault.scan

end TapeMips.Source

namespace TapeMips.Text

/-! ## Unifying in parts

Positions move where a line end of two characters becomes one. How far is the
number of such pairs in front, provided that the cut is not in the middle of
one. -/

/-- The number of carriage returns with a line feed right behind them. -/
def returnPairs (cs : List Char) : Nat := (cs.zip cs.tail).count ('\r', '\n')

theorem returnPairs_pair (rest : List Char) :
    returnPairs ('\r' :: '\n' :: rest) = returnPairs rest + 1 := by
  cases rest <;> simp [returnPairs]

theorem returnPairs_cons {c : Char} {rest : List Char}
    (h : ∀ more, c = '\r' → rest = '\n' :: more → False) :
    returnPairs (c :: rest) = returnPairs rest := by
  cases rest with
  | nil => rfl
  | cons d rest =>
      rw [returnPairs, List.tail_cons, List.zip_cons_cons, List.count_cons_of_ne]
      · rfl
      · intro heq
        obtain ⟨hc, rfl⟩ := Prod.mk.inj heq
        exact h rest hc rfl

theorem unifyNewlines_cons {c : Char} {rest : List Char}
    (h : ∀ more, c = '\r' → rest = '\n' :: more → False) :
    unifyNewlines (c :: rest) = (if c = '\r' then '\n' else c) ::
      unifyNewlines rest := by
  rw [unifyNewlines]
  exact h

theorem length_unifyNewlines (cs : List Char) :
    (unifyNewlines cs).length + returnPairs cs = cs.length := by
  fun_induction unifyNewlines cs with
  | case1 => rfl
  | case2 rest ih =>
      rw [returnPairs_pair]
      simp
      omega
  | case3 c rest h ih =>
      rw [returnPairs_cons h]
      simp
      omega

/-- A text can be unified in two parts, unless the cut is in the middle of a line
end. -/
theorem unifyNewlines_append (xs : List Char) {ys : List Char} (h : MeetApart xs ys) :
    unifyNewlines (xs ++ ys) = unifyNewlines xs ++ unifyNewlines ys := by
  fun_induction unifyNewlines xs with
  | case1 => rfl
  | case2 rest ih =>
      rw [List.cons_append, List.cons_append, unifyNewlines, ih h.tail.tail]
      rfl
  | case3 c rest hsingle ih =>
      rw [List.cons_append, unifyNewlines_cons (h.single hsingle), ih h.tail]
      rfl

end TapeMips.Text

namespace TapeMips.Source

open Text

theorem isFlat_newline : IsFlat '\n' := ⟨by decide, by decide⟩

theorem isFlat_return : IsFlat '\r' := ⟨by decide, by decide⟩

theorem depthAfter?_unifyNewlines (d : Nat) (cs : List Char) :
    depthAfter? d (unifyNewlines cs) = depthAfter? d cs := by
  fun_induction unifyNewlines cs generalizing d with
  | case1 => rfl
  | case2 rest ih =>
      rw [depthAfter?_flat isFlat_newline, depthAfter?_flat isFlat_return,
        depthAfter?_flat isFlat_newline, ih]
  | case3 c rest h ih =>
      by_cases hr : c = '\r'
      · rw [if_pos hr, hr, depthAfter?_flat isFlat_newline,
          depthAfter?_flat isFlat_return, ih]
      · rw [if_neg hr]
        rcases char_cases c with rfl | rfl | hflat
        · exact ih (d + 1)
        · cases d with
          | zero => rfl
          | succ d => exact ih d
        · rw [depthAfter?_flat hflat, depthAfter?_flat hflat, ih]

theorem symbols_unifyNewlines (cs : List Char) :
    symbols (unifyNewlines cs) = symbols cs := by
  fun_induction unifyNewlines cs with
  | case1 => rfl
  | case2 rest ih => exact ih
  | case3 c rest h ih =>
      by_cases hr : c = '\r'
      · rw [if_pos hr, hr]
        exact ih
      · simp only [symbols] at ih ⊢
        rw [if_neg hr, List.filter_cons, List.filter_cons, ih]

/-- The same complaint at another place. -/
def Malformed.moved (e : Malformed) (f : Nat → Nat) : Malformed :=
  match e with
  | .unmatchedClose position => .unmatchedClose (f position)
  | .unclosedOpen position => .unclosedOpen (f position)

/-- Where a position of a text lies when line ends have been unified. -/
def unifiedPosition (cs : List Char) (position : Nat) : Nat :=
  position - returnPairs (cs.take position)

theorem unifiedPosition_split (front back : List Char) :
    unifiedPosition (front ++ back) front.length = (unifyNewlines front).length := by
  have hlen := length_unifyNewlines front
  rw [unifiedPosition, List.take_left]
  omega

theorem Fault.unifyNewlines {cs : List Char} {e : Malformed} (h : Fault cs e) :
    Fault (unifyNewlines cs) (e.moved (unifiedPosition cs)) := by
  cases h with
  | unmatched front back split depth =>
      rw [split, Malformed.moved, unifiedPosition_split]
      refine .unmatched _ (Text.unifyNewlines back) ?_
        (by rwa [depthAfter?_unifyNewlines])
      rw [unifyNewlines_append front (fun _ => by simp), unifyNewlines_cons (by simp)]
      rfl
  | unclosed front back d split depth behind =>
      rw [split, Malformed.moved, unifiedPosition_split]
      refine .unclosed _ (Text.unifyNewlines back) d ?_
        (by rwa [depthAfter?_unifyNewlines]) (by rwa [depthAfter?_unifyNewlines])
      rw [unifyNewlines_append front (fun _ => by simp), unifyNewlines_cons (by simp)]
      rfl

end TapeMips.Source

namespace TapeMips

open Source Codegen Text

theorem compile_eq_error_iff (source : String) (e : Malformed) :
    compile source = .error e ↔ nestingDepth source = .error e := by
  rw [compile]
  cases nestingDepth source <;> simp

/-- A malformed text is malformed in the same way with unified line ends. -/
theorem compile_unifyNewlines_error {cs : List Char} {e : Malformed}
    (h : compile (String.ofList cs) = .error e) :
    compile (String.ofList (unifyNewlines cs)) =
      .error (e.moved (unifiedPosition cs)) := by
  rw [compile_eq_error_iff, nestingDepth_eq_error_iff, String.toList_ofList] at h ⊢
  exact h.unifyNewlines

/-- A program is the same with unified line ends. -/
theorem compile_unifyNewlines_ok {cs : List Char} {c : Compilation}
    (h : compile (String.ofList cs) = .ok c) :
    ∃ c', compile (String.ofList (unifyNewlines cs)) = .ok c' ∧
      c'.assembly = c.assembly ∧ c'.context = c.context := by
  have hdepth := depth_of_compile h
  have hunified : depthAfter? 0 (String.ofList (unifyNewlines cs)).toList =
      some 0 := by
    simpa [depthAfter?_unifyNewlines] using hdepth
  have hsymbols : symbols (String.ofList (unifyNewlines cs)).toList =
      symbols (String.ofList cs).toList := by
    rw [String.toList_ofList, String.toList_ofList, symbols_unifyNewlines]
  obtain ⟨c', d, hc', hd, hsame⟩ := compile_congr hunified hdepth hsymbols
  rw [h, Except.ok.injEq] at hd
  exact ⟨c', hc', hd ▸ hsame⟩

end TapeMips
