import Mathlib.Data.List.Induction
import TapeMips.Proofs.Depth
import TapeMips.Source.Brackets

/-!
# Trees and partners

A text that brings the depth from `d` to zero is what is left of `d` loops and a
tree behind them (`Closes`); a text that leaves `d` loops open is a tree and the
beginnings of `d` loops (`Opens`). Both are read off the depth by walking along
the text, the first from its front and the second from its back, and at depth
zero either says that a balanced text is a tree. A tree can be read in one way
only, because where a sequence of nodes ends is decided by the next character.

Between them the two decompositions put a whole loop around every bracket of a
balanced text, with a tree between its brackets: `Partners`. Counting brackets
through a tree comes out even, so the count finds the partner on either side.
-/

namespace TapeMips.Source

/-- A text that ends `d` loops: the rest of each body with its bracket, and a tree
behind. -/
inductive Closes : Nat → List Char → Prop where
  | tree (t : List Node) : Closes 0 (Node.renderAll t)
  | body (t : List Node) {d : Nat} {cs : List Char} (behind : Closes d cs) :
      Closes (d + 1) (Node.renderAll t ++ ']' :: cs)

theorem Closes.prepend {d : Nat} {cs : List Char} (h : Closes d cs) (n : Node) :
    Closes d (n.render ++ cs) := by
  cases h with
  | tree t =>
      rw [← Node.renderAll_cons]
      exact .tree (n :: t)
  | body t behind =>
      rw [← List.append_assoc, ← Node.renderAll_cons]
      exact .body (n :: t) behind

theorem closes_of_depthAfter? {d : Nat} {cs : List Char}
    (h : depthAfter? d cs = some 0) : Closes d cs := by
  induction cs generalizing d with
  | nil =>
      rw [depthAfter?_nil, Option.some.injEq] at h
      subst h
      exact .tree []
  | cons c rest ih =>
      rcases char_cases c with rfl | rfl | hflat
      · -- The body that the rest closes first becomes the body of this loop.
        have hrest := ih h
        cases hrest with
        | body t behind =>
            have hloop := behind.prepend (.loop t)
            simpa [Node.render] using hloop
      · cases d with
        | zero => cases h
        | succ d => exact .body [] (ih (d := d) h)
      · obtain ⟨n, hn⟩ := hflat.exists_node
        rw [depthAfter?_flat hflat] at h
        have hnode := (ih h).prepend n
        rwa [hn] at hnode

/-- A text that begins `d` loops: a tree, and each bracket with a tree behind it. -/
inductive Opens : Nat → List Char → Prop where
  | tree (t : List Node) : Opens 0 (Node.renderAll t)
  | body {d : Nat} {cs : List Char} (front : Opens d cs) (t : List Node) :
      Opens (d + 1) (cs ++ '[' :: Node.renderAll t)

theorem Opens.append {d : Nat} {cs : List Char} (h : Opens d cs) (n : Node) :
    Opens d (cs ++ n.render) := by
  have hone : Node.renderAll [n] = n.render := by
    rw [Node.renderAll_cons, Node.renderAll_nil, List.append_nil]
  cases h with
  | tree t =>
      rw [← hone, ← Node.renderAll_append]
      exact .tree (t ++ [n])
  | body front t =>
      rw [← hone, List.append_assoc, List.cons_append, ← Node.renderAll_append]
      exact .body front (t ++ [n])

theorem opens_of_depthAfter? {d : Nat} {cs : List Char}
    (h : depthAfter? 0 cs = some d) : Opens d cs := by
  induction cs using List.reverseRecOn generalizing d with
  | nil =>
      rw [depthAfter?_nil, Option.some.injEq] at h
      subst h
      exact .tree []
  | append_singleton front c ih =>
      rw [depthAfter?_append] at h
      obtain ⟨e, he, hc⟩ := Option.bind_eq_some_iff.mp h
      rcases char_cases c with rfl | rfl | hflat
      · rw [depthAfter?_open, depthAfter?_nil, Option.some.injEq] at hc
        subst hc
        have hloop := Opens.body (ih he) []
        rwa [Node.renderAll_nil] at hloop
      · cases e with
        | zero => cases hc
        | succ e =>
            rw [depthAfter?_close_succ, depthAfter?_nil, Option.some.injEq] at hc
            subst hc
            have hfront := ih he
            cases hfront with
            | body outer t =>
                have hloop := outer.append (.loop t)
                simpa [Node.render] using hloop
      · rw [depthAfter?_flat hflat, depthAfter?_nil, Option.some.injEq] at hc
        subst hc
        obtain ⟨n, hn⟩ := hflat.exists_node
        have hnode := (ih he).append n
        rwa [hn] at hnode

theorem depthAfter?_eq_zero_iff (cs : List Char) :
    depthAfter? 0 cs = some 0 ↔ ∃ t, cs = Node.renderAll t := by
  constructor
  · intro h
    have hcloses := closes_of_depthAfter? h
    cases hcloses with
    | tree t => exact ⟨t, rfl⟩
  · rintro ⟨t, rfl⟩
    exact depthAfter?_renderAll 0 t

/-- What may follow a sequence of nodes that has come to its end: nothing, or the
bracket that closes the loop around it. -/
def EndsBody (cs : List Char) : Prop := ∀ c ∈ cs.head?, c = ']'

theorem endsBody_nil : EndsBody [] := by
  intro c hc
  cases hc

theorem endsBody_close (cs : List Char) : EndsBody (']' :: cs) := by
  intro c hc
  exact (Option.some.inj hc).symm

theorem not_endsBody_node (n : Node) (cs : List Char) :
    ¬ EndsBody (n.render ++ cs) := by
  intro h
  cases n with
  | action a =>
      rw [Node.render] at h
      exact (isFlat_symbol a).2 (h a.symbol rfl)
  | comment c =>
      rw [Node.render] at h
      exact c.isFlat.2 (h c.char rfl)
  | loop body =>
      rw [Node.render] at h
      exact absurd (h '[' rfl) (by decide)

theorem Comment.char_ne_symbol (c : Comment) (a : Action) : c.char ≠ a.symbol := by
  intro h
  have hnone := c.is_comment
  rw [h, ofChar?_symbol_action] at hnone
  cases hnone

theorem symbol_injective {a b : Action} (h : a.symbol = b.symbol) : a = b := by
  have hab := ofChar?_symbol_action a
  rw [h, ofChar?_symbol_action, Option.some.injEq] at hab
  exact (Command.act.inj hab).symm

theorem Comment.ext_char {c c' : Comment} (h : c.char = c'.char) : c = c' := by
  cases c
  cases c'
  cases h
  rfl

/-- A text begins with one sequence of nodes only, once it is said where the
sequence ends. -/
theorem renderAll_append_inj {t : List Node} : ∀ {t' : List Node} {xs ys : List Char},
    EndsBody xs → EndsBody ys → Node.renderAll t ++ xs = Node.renderAll t' ++ ys →
      t = t' ∧ xs = ys := by
  induction t using Node.seqInduction with
  | nil =>
      intro t' xs ys hx _ h
      cases t' with
      | nil => exact ⟨rfl, h⟩
      | cons n rest =>
          rw [Node.renderAll_nil, List.nil_append, Node.renderAll_cons,
            List.append_assoc] at h
          rw [h] at hx
          exact absurd hx (not_endsBody_node n _)
  | action a rest ih =>
      intro t' xs ys hx hy h
      rw [Node.renderAll_action, List.cons_append] at h
      rcases t' with _ | ⟨a' | c' | body', rest'⟩
      · rw [Node.renderAll_nil, List.nil_append] at h
        exact absurd (h ▸ hy) (not_endsBody_node (.action a) _)
      · rw [Node.renderAll_action, List.cons_append] at h
        injection h with hhead htail
        obtain ⟨rfl, rfl⟩ := ih hx hy htail
        exact ⟨by rw [symbol_injective hhead], rfl⟩
      · rw [Node.renderAll_comment, List.cons_append] at h
        injection h with hhead _
        exact absurd hhead.symm (c'.char_ne_symbol a)
      · rw [Node.renderAll_loop, List.cons_append] at h
        injection h with hhead _
        exact absurd hhead (isFlat_symbol a).1
  | comment c rest ih =>
      intro t' xs ys hx hy h
      rw [Node.renderAll_comment, List.cons_append] at h
      rcases t' with _ | ⟨a' | c' | body', rest'⟩
      · rw [Node.renderAll_nil, List.nil_append] at h
        exact absurd (h ▸ hy) (not_endsBody_node (.comment c) _)
      · rw [Node.renderAll_action, List.cons_append] at h
        injection h with hhead _
        exact absurd hhead (c.char_ne_symbol a')
      · rw [Node.renderAll_comment, List.cons_append] at h
        injection h with hhead htail
        obtain ⟨rfl, rfl⟩ := ih hx hy htail
        exact ⟨by rw [Comment.ext_char hhead], rfl⟩
      · rw [Node.renderAll_loop, List.cons_append] at h
        injection h with hhead _
        exact absurd hhead c.isFlat.1
  | loop body rest ihb ih =>
      intro t' xs ys hx hy h
      rw [Node.renderAll_loop, List.cons_append] at h
      rcases t' with _ | ⟨a' | c' | body', rest'⟩
      · rw [Node.renderAll_nil, List.nil_append] at h
        exact absurd (hy '[' (by rw [← h]; rfl)) (by decide)
      · rw [Node.renderAll_action, List.cons_append] at h
        injection h with hhead _
        exact absurd hhead.symm (isFlat_symbol a').1
      · rw [Node.renderAll_comment, List.cons_append] at h
        injection h with hhead _
        exact absurd hhead.symm c'.isFlat.1
      · -- The bodies end at their brackets, so they agree first, and then what
        -- follows them.
        rw [Node.renderAll_loop, List.cons_append] at h
        injection h with _ htail
        rw [List.append_assoc, List.append_assoc] at htail
        obtain ⟨rfl, hbehind⟩ := ihb (endsBody_close _) (endsBody_close _) htail
        injection hbehind with _ hrest
        obtain ⟨rfl, rfl⟩ := ih hx hy hrest
        exact ⟨rfl, rfl⟩

theorem renderAll_injective {t t' : List Node}
    (h : Node.renderAll t = Node.renderAll t') : t = t' := by
  refine (renderAll_append_inj endsBody_nil endsBody_nil ?_).1
  rw [List.append_nil, List.append_nil, h]

/-! ## Partners

Two brackets are partners if a tree stands between them. -/

/-- The brackets at two positions begin and end the same loop. -/
def Partners (cs : List Char) (i j : Nat) : Prop :=
  ∃ front body back, cs = front ++ '[' :: (Node.renderAll body ++ ']' :: back) ∧
    i = front.length ∧ j = front.length + 1 + (Node.renderAll body).length

theorem Partners.lt {cs : List Char} {i j : Nat} (h : Partners cs i j) : i < j := by
  obtain ⟨front, body, back, _, hi, hj⟩ := h
  omega

theorem Partners.getElem?_left {cs : List Char} {i j : Nat} (h : Partners cs i j) :
    cs[i]? = some '[' := by
  obtain ⟨front, body, back, rfl, rfl, _⟩ := h
  rw [List.getElem?_append_right (Nat.le_refl _), Nat.sub_self,
    List.getElem?_cons_zero]

theorem Partners.getElem?_right {cs : List Char} {i j : Nat} (h : Partners cs i j) :
    cs[j]? = some ']' := by
  obtain ⟨front, body, back, rfl, _, rfl⟩ := h
  rw [List.getElem?_append_right (by omega), Nat.add_assoc, Nat.add_sub_cancel_left,
    Nat.add_comm, List.getElem?_cons_succ, List.getElem?_append_right (Nat.le_refl _),
    Nat.sub_self, List.getElem?_cons_zero]

theorem Partners.lt_length {cs : List Char} {i j : Nat} (h : Partners cs i j) :
    j < cs.length :=
  (List.getElem?_eq_some_iff.mp h.getElem?_right).1

theorem exists_split_of_getElem? {cs : List Char} {i : Nat} {c : Char}
    (h : cs[i]? = some c) :
    ∃ front back, cs = front ++ c :: back ∧ i = front.length := by
  obtain ⟨hi, hc⟩ := List.getElem?_eq_some_iff.mp h
  refine ⟨cs.take i, cs.drop (i + 1), ?_, ?_⟩
  · rw [← hc, ← List.drop_eq_getElem_cons hi, List.take_append_drop]
  · rw [List.length_take]
    omega

theorem exists_partner_of_open {cs : List Char} {i : Nat}
    (h : depthAfter? 0 cs = some 0) (hi : cs[i]? = some '[') :
    ∃ j, Partners cs i j := by
  obtain ⟨front, back, rfl, rfl⟩ := exists_split_of_getElem? hi
  rw [depthAfter?_append] at h
  obtain ⟨d, _, hback⟩ := Option.bind_eq_some_iff.mp h
  rw [depthAfter?_open] at hback
  have hcloses := closes_of_depthAfter? hback
  generalize hk : d + 1 = k at hcloses
  cases hcloses with
  | tree t => exact absurd hk (by omega)
  | body t behind => exact ⟨_, front, t, _, rfl, rfl, rfl⟩

/-- A closing bracket has its partner as soon as nothing up to it closes too much;
what follows it does not matter. -/
theorem exists_partner_of_close {cs : List Char} {j d : Nat}
    (h : depthAfter? 0 (cs.take (j + 1)) = some d) (hj : cs[j]? = some ']') :
    ∃ i, Partners cs i j := by
  obtain ⟨front, back, rfl, rfl⟩ := exists_split_of_getElem? hj
  rw [List.take_length_add_append, List.take_succ_cons, List.take_zero,
    depthAfter?_append] at h
  obtain ⟨e, hfront, hclose⟩ := Option.bind_eq_some_iff.mp h
  cases e with
  | zero => cases hclose
  | succ e =>
      have hopens := opens_of_depthAfter? hfront
      cases hopens with
      | @body _ outer _ t =>
          refine ⟨outer.length, outer, t, back, ?_, rfl, ?_⟩
          · rw [List.append_assoc, List.cons_append]
          · rw [List.length_append, List.length_cons]
            omega

theorem exists_depthAfter?_take {d e : Nat} {cs : List Char}
    (h : depthAfter? d cs = some e) (n : Nat) :
    ∃ k, depthAfter? d (cs.take n) = some k := by
  rw [← List.take_append_drop n cs, depthAfter?_append] at h
  obtain ⟨k, hk, _⟩ := Option.bind_eq_some_iff.mp h
  exact ⟨k, hk⟩

/-- Every bracket of a balanced text has a partner. -/
theorem place_cases {cs : List Char} (hcs : depthAfter? 0 cs = some 0) {n : Nat}
    {c : Char} (hc : cs[n]? = some c) :
    (∃ j, Partners cs n j) ∨ (∃ i, Partners cs i n) ∨ IsFlat c := by
  rcases char_cases c with rfl | rfl | hflat
  · exact Or.inl (exists_partner_of_open hcs hc)
  · obtain ⟨d, hd⟩ := exists_depthAfter?_take hcs (n + 1)
    exact Or.inr (Or.inl (exists_partner_of_close hd hc))
  · exact Or.inr (Or.inr hflat)

/-! ## The count finds the partner

`loopSpan` counts depth in one direction, the other way for a closing bracket.
A tree between two brackets is passed over either way, so the count stops at
the partner. -/

theorem loopSpan_flat {enter leave : Command} {c : Char} (hflat : IsFlat c)
    (henter : enter = .loopOpen ∨ enter = .loopClose)
    (hleave : leave = .loopOpen ∨ leave = .loopClose) (d : Nat) (cs : List Char) :
    loopSpan enter leave d (c :: cs) = loopSpan enter leave d cs + 1 := by
  have hno : ∀ k : Command, k = .loopOpen ∨ k = .loopClose →
      Command.ofChar? c ≠ some k := by
    rintro k (rfl | rfl)
    · exact hflat.not_loopOpen
    · exact hflat.not_loopClose
  rw [loopSpan.eq_def]
  simp only []
  rw [if_neg (hno enter henter), if_neg (hno leave hleave)]

theorem loopSpan_renderAll (t : List Node) (d : Nat) (cs : List Char) :
    loopSpan .loopOpen .loopClose d (Node.renderAll t ++ cs) =
      (Node.renderAll t).length + loopSpan .loopOpen .loopClose d cs := by
  have hopen : ∀ d cs, loopSpan .loopOpen .loopClose d ('[' :: cs) =
      loopSpan .loopOpen .loopClose (d + 1) cs + 1 := fun _ _ => rfl
  have hclose : ∀ d cs, loopSpan .loopOpen .loopClose (d + 1) (']' :: cs) =
      loopSpan .loopOpen .loopClose d cs + 1 := fun _ _ => rfl
  induction t using Node.seqInduction generalizing d cs with
  | nil => rw [Node.renderAll_nil, List.nil_append, List.length_nil, Nat.zero_add]
  | action a rest ih =>
      rw [Node.renderAll_action, List.cons_append,
        loopSpan_flat (isFlat_symbol a) (by simp) (by simp), ih, List.length_cons]
      omega
  | comment c rest ih =>
      rw [Node.renderAll_comment, List.cons_append,
        loopSpan_flat c.isFlat (by simp) (by simp), ih, List.length_cons]
      omega
  | loop body rest ihb ih =>
      rw [Node.renderAll_loop, List.cons_append, List.append_assoc,
        List.cons_append, hopen, ihb, hclose, ih]
      simp only [List.length_cons, List.length_append]
      omega

theorem loopSpan_renderAll_reverse (t : List Node) (d : Nat) (cs : List Char) :
    loopSpan .loopClose .loopOpen d ((Node.renderAll t).reverse ++ cs) =
      (Node.renderAll t).length + loopSpan .loopClose .loopOpen d cs := by
  have hclose : ∀ d cs, loopSpan .loopClose .loopOpen d (']' :: cs) =
      loopSpan .loopClose .loopOpen (d + 1) cs + 1 := fun _ _ => rfl
  have hopen : ∀ d cs, loopSpan .loopClose .loopOpen (d + 1) ('[' :: cs) =
      loopSpan .loopClose .loopOpen d cs + 1 := fun _ _ => rfl
  induction t using Node.seqInduction generalizing d cs with
  | nil =>
      rw [Node.renderAll_nil, List.reverse_nil, List.nil_append, List.length_nil,
        Nat.zero_add]
  | action a rest ih =>
      rw [Node.renderAll_action, List.reverse_cons, List.append_assoc, ih,
        List.singleton_append, loopSpan_flat (isFlat_symbol a) (by simp) (by simp),
        List.length_cons]
      omega
  | comment c rest ih =>
      rw [Node.renderAll_comment, List.reverse_cons, List.append_assoc, ih,
        List.singleton_append, loopSpan_flat c.isFlat (by simp) (by simp),
        List.length_cons]
      omega
  | loop body rest ihb ih =>
      have hshape : (Node.renderAll (.loop body :: rest)).reverse ++ cs =
          (Node.renderAll rest).reverse ++
            ']' :: ((Node.renderAll body).reverse ++ '[' :: cs) := by
        simp
      rw [hshape, ih, hclose, ihb, hopen, Node.renderAll_loop]
      simp only [List.length_cons, List.length_append]
      omega

theorem Partners.closing_eq {cs : List Char} {i j : Nat} (h : Partners cs i j) :
    closing cs i = j := by
  obtain ⟨front, body, back, rfl, rfl, rfl⟩ := h
  have hdrop : (front ++ '[' :: (Node.renderAll body ++ ']' :: back)).drop
      (front.length + 1) = Node.renderAll body ++ ']' :: back := by
    rw [← List.drop_drop, List.drop_left, List.drop_one, List.tail_cons]
  rw [closing, hdrop, loopSpan_renderAll]
  rfl

theorem Partners.opening_eq {cs : List Char} {i j : Nat} (h : Partners cs i j) :
    opening cs j = i := by
  obtain ⟨front, body, back, rfl, rfl, rfl⟩ := h
  have htake : (front ++ '[' :: (Node.renderAll body ++ ']' :: back)).take
      (front.length + 1 + (Node.renderAll body).length) =
        front ++ '[' :: Node.renderAll body := by
    rw [Nat.add_assoc, List.take_length_add_append, Nat.add_comm, List.take_succ_cons,
      List.take_left]
  have hspan : loopSpan .loopClose .loopOpen 0 ('[' :: front.reverse) = 0 := rfl
  rw [opening, htake, List.reverse_append, List.reverse_cons, List.append_assoc,
    List.singleton_append, loopSpan_renderAll_reverse, hspan]
  omega

theorem Partners.embed {cs : List Char} {i j : Nat} (h : Partners cs i j)
    (xs ys : List Char) :
    Partners (xs ++ (cs ++ ys)) (xs.length + i) (xs.length + j) := by
  obtain ⟨front, body, back, rfl, rfl, rfl⟩ := h
  refine ⟨xs ++ front, body, back ++ ys, ?_, ?_, ?_⟩
  · simp
  · rw [List.length_append]
  · rw [List.length_append]
    omega

/-- Of two loops, the one that begins later lies inside the other or behind it. -/
theorem Partners.nested_or_disjoint {cs : List Char} {i j i' j' : Nat}
    (h : Partners cs i j) (h' : Partners cs i' j') (hlt : i < i') :
    j' < j ∨ j < i' := by
  rcases Nat.lt_trichotomy i' j with hin | heq | hout
  · -- The later bracket stands in the body, and the body is balanced by itself.
    left
    obtain ⟨front, body, back, rfl, rfl, rfl⟩ := h
    have hbracket := h'.getElem?_left
    rw [List.getElem?_append_right (by omega), List.getElem?_cons,
      if_neg (by omega), List.getElem?_append_left (by omega)] at hbracket
    obtain ⟨m, hm⟩ := exists_partner_of_open (depthAfter?_renderAll 0 body) hbracket
    have hm_lt : m < (Node.renderAll body).length :=
      (List.getElem?_eq_some_iff.mp hm.getElem?_right).1
    have hwhole := hm.embed (front ++ ['[']) (']' :: back)
    rw [List.append_assoc, List.singleton_append] at hwhole
    have hi' : (front ++ ['[']).length + (i' - front.length - 1) = i' := by
      rw [List.length_append, List.length_singleton]
      omega
    rw [hi'] at hwhole
    have hj' : j' = (front ++ ['[']).length + m := by
      rw [← h'.closing_eq, hwhole.closing_eq]
    rw [hj', List.length_append, List.length_singleton]
    omega
  · exact absurd (heq ▸ h.getElem?_right) (by rw [h'.getElem?_left]; decide)
  · exact Or.inr hout

theorem loopNumber_eq (front back : List Char) :
    loopNumber (front ++ '[' :: back) front.length = front.count '[' + 1 := by
  rw [loopNumber, List.take_length_add_append, List.take_succ_cons, List.take_zero,
    List.count_append, List.count_singleton_self]

theorem loopNumber_pos {cs : List Char} {i : Nat} (h : cs[i]? = some '[') :
    1 ≤ loopNumber cs i := by
  obtain ⟨front, back, rfl, rfl⟩ := exists_split_of_getElem? h
  rw [loopNumber_eq]
  omega

theorem loopNumber_le (cs : List Char) (i : Nat) : loopNumber cs i ≤ cs.count '[' :=
  (List.take_sublist _ _).count_le _

theorem loopNumber_lt {cs : List Char} {i j : Nat} (hlt : i < j)
    (hj : cs[j]? = some '[') : loopNumber cs i < loopNumber cs j := by
  obtain ⟨front, back, rfl, rfl⟩ := exists_split_of_getElem? hj
  rw [loopNumber_eq, loopNumber, List.take_append_of_le_length hlt]
  exact Nat.lt_succ_of_le ((List.take_sublist (i + 1) front).count_le '[')

theorem loopNumber_inj {cs : List Char} {i j : Nat} (hi : cs[i]? = some '[')
    (hj : cs[j]? = some '[') (h : loopNumber cs i = loopNumber cs j) : i = j := by
  rcases Nat.lt_trichotomy i j with hlt | heq | hgt
  · have := loopNumber_lt hlt hj
    omega
  · exact heq
  · have := loopNumber_lt hgt hi
    omega

theorem exists_loopNumber {cs : List Char} {k : Nat} (hpos : 1 ≤ k)
    (hle : k ≤ cs.count '[') : ∃ i, cs[i]? = some '[' ∧ loopNumber cs i = k := by
  induction cs using List.reverseRecOn with
  | nil =>
      rw [List.count_nil] at hle
      omega
  | append_singleton front c ih =>
      rw [List.count_append] at hle
      by_cases hk : k ≤ front.count '['
      · obtain ⟨i, hi, hnum⟩ := ih hk
        have hlt : i < front.length := (List.getElem?_eq_some_iff.mp hi).1
        refine ⟨i, ?_, ?_⟩
        · rw [List.getElem?_append_left hlt, hi]
        · rw [loopNumber, List.take_append_of_le_length hlt]
          exact hnum
      · by_cases hc : c = '['
        · subst hc
          rw [List.count_singleton_self] at hle
          refine ⟨front.length, ?_, ?_⟩
          · rw [List.getElem?_append_right (Nat.le_refl _), Nat.sub_self,
              List.getElem?_cons_zero]
          · rw [loopNumber_eq]
            omega
        · rw [List.count_singleton, if_neg (by simpa using hc)] at hle
          omega

end TapeMips.Source
