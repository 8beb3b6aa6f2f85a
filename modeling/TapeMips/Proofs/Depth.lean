import TapeMips.Source.Balance
import TapeMips.Source.Tree

/-!
# The depth of a text

Everything that reads brackets from left to right keeps count of the loops that
are open. `depthAfter?` is that count and nothing else, and this file says how
the parts of the library relate to it: a tree leaves it as it was, the brackets
of a text add up to it, and the pass that validates a source follows it
character by character. The last is an inductive statement, `ScanVerdict`, with
one case for each answer the pass can give; the answers exclude each other
because the depths do, so whoever needs an equivalence reads it off the cases.
-/

namespace TapeMips.Source

/-- Induction over a sequence of nodes. A loop at the front comes with a
hypothesis for its body, so that nothing has to be said about single nodes. -/
@[elab_as_elim]
theorem Node.seqInduction {P : List Node → Prop} (nil : P [])
    (action : ∀ a rest, P rest → P (.action a :: rest))
    (comment : ∀ c rest, P rest → P (.comment c :: rest))
    (loop : ∀ body rest, P body → P rest → P (.loop body :: rest)) : ∀ t, P t
  | [] => nil
  | .action a :: rest => action a rest (seqInduction nil action comment loop rest)
  | .comment c :: rest => comment c rest (seqInduction nil action comment loop rest)
  | .loop body :: rest =>
      loop body rest (seqInduction nil action comment loop body)
        (seqInduction nil action comment loop rest)

@[simp]
theorem Node.renderAll_nil : Node.renderAll [] = [] := by
  rw [Node.renderAll]

theorem Node.renderAll_cons (n : Node) (rest : List Node) :
    Node.renderAll (n :: rest) = n.render ++ Node.renderAll rest := by
  rw [Node.renderAll]

@[simp]
theorem Node.renderAll_action (a : Action) (rest : List Node) :
    Node.renderAll (.action a :: rest) = a.symbol :: Node.renderAll rest := by
  rw [Node.renderAll, Node.render]
  rfl

@[simp]
theorem Node.renderAll_comment (c : Comment) (rest : List Node) :
    Node.renderAll (.comment c :: rest) = c.char :: Node.renderAll rest := by
  rw [Node.renderAll, Node.render]
  rfl

@[simp]
theorem Node.renderAll_loop (body rest : List Node) :
    Node.renderAll (.loop body :: rest) =
      '[' :: (Node.renderAll body ++ ']' :: Node.renderAll rest) := by
  rw [Node.renderAll, Node.render]
  simp

@[simp]
theorem ofChar?_symbol_action (a : Action) :
    Command.ofChar? a.symbol = some (.act a) :=
  Command.ofChar?_symbol (.act a)

@[simp]
theorem ofChar?_open : Command.ofChar? '[' = some .loopOpen := rfl

@[simp]
theorem ofChar?_close : Command.ofChar? ']' = some .loopClose := rfl

/-- A character that is no bracket: a command of its own, or a comment. -/
def IsFlat (c : Char) : Prop := c ≠ '[' ∧ c ≠ ']'

theorem char_cases (c : Char) : c = '[' ∨ c = ']' ∨ IsFlat c := by
  by_cases hopen : c = '['
  · exact Or.inl hopen
  · by_cases hclose : c = ']'
    · exact Or.inr (Or.inl hclose)
    · exact Or.inr (Or.inr ⟨hopen, hclose⟩)

theorem IsFlat.not_loopOpen {c : Char} (h : IsFlat c) :
    Command.ofChar? c ≠ some .loopOpen :=
  fun hc => h.1 (Command.ofChar?_eq_some_iff.mp hc)

theorem IsFlat.not_loopClose {c : Char} (h : IsFlat c) :
    Command.ofChar? c ≠ some .loopClose :=
  fun hc => h.2 (Command.ofChar?_eq_some_iff.mp hc)

theorem isFlat_symbol (a : Action) : IsFlat a.symbol := by
  cases a <;> exact ⟨by decide, by decide⟩

theorem Comment.isFlat (c : Comment) : IsFlat c.char := by
  constructor
  · intro h
    have hnone := c.is_comment
    rw [h] at hnone
    cases hnone
  · intro h
    have hnone := c.is_comment
    rw [h] at hnone
    cases hnone

theorem IsFlat.exists_node {c : Char} (h : IsFlat c) : ∃ n : Node, n.render = [c] := by
  cases hc : Command.ofChar? c with
  | none => exact ⟨.comment ⟨c, hc⟩, by rw [Node.render]⟩
  | some k =>
      cases k with
      | act a =>
          obtain rfl : c = a.symbol := Command.ofChar?_eq_some_iff.mp hc
          exact ⟨.action a, by rw [Node.render]⟩
      | loopOpen => exact absurd hc h.not_loopOpen
      | loopClose => exact absurd hc h.not_loopClose

/-- The number of loops open after some characters, if `depth` were open before
them; `none` if one of them closes a loop that was never opened. -/
def depthAfter? : (depth : Nat) → List Char → Option Nat
  | depth, [] => some depth
  | depth, c :: rest =>
    match Command.ofChar? c with
    | some .loopOpen => depthAfter? (depth + 1) rest
    | some .loopClose => if depth = 0 then none else depthAfter? (depth - 1) rest
    | _ => depthAfter? depth rest

@[simp]
theorem depthAfter?_nil (d : Nat) : depthAfter? d [] = some d := rfl

@[simp]
theorem depthAfter?_open (d : Nat) (cs : List Char) :
    depthAfter? d ('[' :: cs) = depthAfter? (d + 1) cs := rfl

@[simp]
theorem depthAfter?_close_succ (d : Nat) (cs : List Char) :
    depthAfter? (d + 1) (']' :: cs) = depthAfter? d cs := rfl

theorem depthAfter?_flat {c : Char} (h : IsFlat c) (d : Nat) (cs : List Char) :
    depthAfter? d (c :: cs) = depthAfter? d cs := by
  rw [depthAfter?]
  split
  · next hc => exact absurd hc h.not_loopOpen
  · next hc => exact absurd hc h.not_loopClose
  · rfl

theorem depthAfter?_append (d : Nat) (xs ys : List Char) :
    depthAfter? d (xs ++ ys) = (depthAfter? d xs).bind (depthAfter? · ys) := by
  induction xs generalizing d with
  | nil => rfl
  | cons c rest ih =>
      rw [List.cons_append]
      rcases char_cases c with rfl | rfl | hflat
      · exact ih (d + 1)
      · cases d with
        | zero => rfl
        | succ d => exact ih d
      · rw [depthAfter?_flat hflat, depthAfter?_flat hflat]
        exact ih d

@[simp]
theorem depthAfter?_renderAll (d : Nat) (t : List Node) :
    depthAfter? d (Node.renderAll t) = some d := by
  induction t using Node.seqInduction generalizing d with
  | nil => rw [Node.renderAll_nil, depthAfter?_nil]
  | action a rest ih =>
      rw [Node.renderAll_action, depthAfter?_flat (isFlat_symbol a), ih]
  | comment c rest ih => rw [Node.renderAll_comment, depthAfter?_flat c.isFlat, ih]
  | loop body rest ihb ih =>
      rw [Node.renderAll_loop, depthAfter?_open, depthAfter?_append, ihb,
        Option.bind_some, depthAfter?_close_succ, ih]

/-- The brackets of a text that closes nothing too many, counted: what is open at
the end was open before or has been opened. -/
theorem count_of_depthAfter? {d e : Nat} {cs : List Char}
    (h : depthAfter? d cs = some e) : e + cs.count ']' = d + cs.count '[' := by
  induction cs generalizing d with
  | nil =>
      rw [depthAfter?_nil, Option.some.injEq] at h
      rw [h, List.count_nil, List.count_nil]
  | cons c rest ih =>
      rcases char_cases c with rfl | rfl | hflat
      · have := ih h
        rw [List.count_cons_self, List.count_cons_of_ne (by decide)]
        omega
      · cases d with
        | zero => cases h
        | succ d =>
            have := ih (d := d) h
            rw [List.count_cons_self, List.count_cons_of_ne (by decide)]
            omega
      · rw [depthAfter?_flat hflat] at h
        rw [List.count_cons_of_ne hflat.1, List.count_cons_of_ne hflat.2]
        exact ih h

/-- What the pass can say, each answer with what the depth does. -/
inductive ScanVerdict (n : Nesting) (position : Nat) (cs : List Char) : Prop where
  | balanced (deepest : Nat) (depth : depthAfter? n.depth cs = some 0)
      (answer : n.scan position cs = .ok deepest)
  | unclosed (d outermost : Nat) (depth : depthAfter? n.depth cs = some (d + 1))
      (answer : n.scan position cs = .error (.unclosedOpen outermost))
  | unmatched (front back : List Char) (split : cs = front ++ ']' :: back)
      (depth : depthAfter? n.depth front = some 0)
      (answer : n.scan position cs =
        .error (.unmatchedClose (position + front.length)))

/-- A character that does the same to the pass and to the depth keeps the two in
step. -/
theorem ScanVerdict.cons {n n' : Nesting} {position : Nat} {c : Char}
    {rest : List Char}
    (hdepth : ∀ cs, depthAfter? n.depth (c :: cs) = depthAfter? n'.depth cs)
    (hscan : n.scan position (c :: rest) = n'.scan (position + 1) rest)
    (h : ScanVerdict n' (position + 1) rest) : ScanVerdict n position (c :: rest) := by
  cases h with
  | balanced deepest depth answer =>
      exact .balanced deepest (by rw [hdepth, depth]) (by rw [hscan, answer])
  | unclosed d outermost depth answer =>
      exact .unclosed d outermost (by rw [hdepth, depth]) (by rw [hscan, answer])
  | unmatched front back split depth answer =>
      refine .unmatched (c :: front) back (by rw [split]; rfl)
        (by rw [hdepth, depth]) ?_
      rw [hscan, answer, List.length_cons]
      congr 2
      omega

theorem scan_flat {c : Char} (hflat : IsFlat c) (n : Nesting) (position : Nat)
    (rest : List Char) : n.scan position (c :: rest) = n.scan (position + 1) rest := by
  rw [Nesting.scan]
  split
  · next hc => exact absurd hc hflat.not_loopOpen
  · next hc => exact absurd hc hflat.not_loopClose
  · rfl

theorem scan_close {n : Nesting} (h : n.depth ≠ 0) (position : Nat)
    (rest : List Char) :
    n.scan position (']' :: rest) =
      Nesting.scan { n with depth := n.depth - 1 } (position + 1) rest := by
  rw [Nesting.scan]
  exact if_neg h

theorem scanVerdict (n : Nesting) (position : Nat) (cs : List Char) :
    ScanVerdict n position cs := by
  induction cs generalizing n position with
  | nil =>
      cases hd : n.depth with
      | zero =>
          exact .balanced n.deepest (by rw [hd]; rfl) (by rw [Nesting.scan, if_pos hd])
      | succ d =>
          exact .unclosed d n.outermost (by rw [hd]; rfl)
            (by rw [Nesting.scan, if_neg (by omega)])
  | cons c rest ih =>
      rcases char_cases c with rfl | rfl | hflat
      · exact (ih (n.enter position) (position + 1)).cons (fun _ => rfl) rfl
      · by_cases hd : n.depth = 0
        · refine .unmatched [] rest rfl (by rw [hd]; rfl) ?_
          rw [Nesting.scan]
          exact if_pos hd
        · refine (ih { n with depth := n.depth - 1 } (position + 1)).cons
            (fun cs => ?_) ?_
          · rw [depthAfter?]
            exact if_neg hd
          · exact scan_close hd position rest
      · exact (ih n (position + 1)).cons (fun cs => depthAfter?_flat hflat _ cs)
          (scan_flat hflat n position rest)

/-- A source is balanced exactly if its characters bring the depth back to zero. -/
theorem isBalanced_iff_depth (source : String) :
    isBalanced source = true ↔ depthAfter? 0 source.toList = some 0 := by
  rw [isBalanced, nestingDepth]
  rcases scanVerdict {} 0 source.toList with
    ⟨k, hd, hs⟩ | ⟨d, p, hd, hs⟩ | ⟨xs, ys, hcs, hd, hs⟩
  · rw [hs]
    exact ⟨fun _ => hd, fun _ => rfl⟩
  · rw [hs]
    refine ⟨fun h => Bool.noConfusion h, fun h => ?_⟩
    rw [hd] at h
    cases h
  · rw [hs]
    refine ⟨fun h => Bool.noConfusion h, fun h => ?_⟩
    rw [hcs, depthAfter?_append, hd] at h
    cases h

theorem malformed?_eq_some_iff (source : String) (e : Malformed) :
    malformed? source = some e ↔ nestingDepth source = .error e := by
  rw [malformed?]
  cases nestingDepth source <;> simp

theorem malformed?_eq_none_iff (source : String) :
    malformed? source = none ↔ depthAfter? 0 source.toList = some 0 := by
  rw [← isBalanced_iff_depth, isBalanced, malformed?]
  cases nestingDepth source <;> simp [Except.toBool]

end TapeMips.Source
