import Mathlib.Order.Bounds.Basic
import TapeMips.Proofs.LineEnds

/-!
# Brackets counted in every prefix

What the validator says about a source can be said without running it: count the
brackets in every prefix. `balance` is that count, opening brackets less closing
ones, and unlike the depth of the pass it may fall below zero.

The bridge is `depthAfter?_eq_some_iff`. As long as no prefix is negative the
depth exists and is the balance, and the first negative prefix is where the depth
ends. The two complaints follow by reading the splits of `Fault` as statements
about prefixes. A source that is not complained about is judged by its greatest
balance, which is what the pass has kept as its largest depth
(`peaks_of_scan`), and in a tree that balance is the number of loops inside
each other (`isGreatest_depthAll`).
-/

namespace TapeMips.Source

/-- The opening brackets less the closing ones among the first `n` characters. -/
def balance (cs : List Char) (n : Nat) : Int :=
  (cs.take n).count '[' - (cs.take n).count ']'

@[simp]
theorem balance_zero (cs : List Char) : balance cs 0 = 0 := by simp [balance]

@[simp]
theorem balance_nil (n : Nat) : balance [] n = 0 := by simp [balance]

@[simp]
theorem balance_open (cs : List Char) (n : Nat) :
    balance ('[' :: cs) (n + 1) = balance cs n + 1 := by
  simp [balance]
  omega

@[simp]
theorem balance_close (cs : List Char) (n : Nat) :
    balance (']' :: cs) (n + 1) = balance cs n - 1 := by
  simp [balance]
  omega

theorem balance_flat {c : Char} (h : IsFlat c) (cs : List Char) (n : Nat) :
    balance (c :: cs) (n + 1) = balance cs n := by
  rw [balance, List.take_succ_cons, List.count_cons_of_ne h.1,
    List.count_cons_of_ne h.2, balance]

theorem balance_append (xs ys : List Char) (n : Nat) :
    balance (xs ++ ys) n = balance xs n + balance ys (n - xs.length) := by
  rw [balance, balance, balance, List.take_append, List.count_append,
    List.count_append]
  omega

theorem balance_take (cs : List Char) (i n : Nat) :
    balance (cs.take i) n = balance cs (min n i) := by
  rw [balance, List.take_take, balance]

/-- Behind its end a text has the balance of the whole. -/
theorem balance_of_length_le {cs : List Char} {n : Nat} (h : cs.length ≤ n) :
    balance cs n = balance cs cs.length := by
  rw [balance, balance, List.take_of_length_le h, List.take_length]

theorem forall_balance_cons {P : Int → Prop} (c : Char) (cs : List Char)
    (hzero : P 0) :
    (∀ n, P (balance (c :: cs) n)) ↔ ∀ n, P (balance (c :: cs) (n + 1)) := by
  constructor
  · intro h n
    exact h (n + 1)
  · intro h n
    cases n with
    | zero => rwa [balance_zero]
    | succ n => exact h n

/-- The depth exists as long as no prefix takes it below zero, and then it is the
balance. -/
theorem depthAfter?_eq_some_iff {d e : Nat} {cs : List Char} :
    depthAfter? d cs = some e ↔
      (∀ n, 0 ≤ d + balance cs n) ∧ (d + balance cs cs.length : Int) = e := by
  induction cs generalizing d with
  | nil =>
      simp only [depthAfter?_nil, Option.some.injEq, balance_nil, Int.add_zero]
      exact ⟨fun h => ⟨fun _ => by omega, by omega⟩, fun ⟨_, h⟩ => by omega⟩
  | cons c rest ih =>
      rw [forall_balance_cons (P := fun b => 0 ≤ d + b) c rest (by omega),
        List.length_cons]
      rcases char_cases c with rfl | rfl | hflat
      · rw [depthAfter?_open, ih]
        simp only [balance_open]
        exact and_congr (forall_congr' fun n => by omega) (by omega)
      · cases d with
        | zero =>
            have hnone : depthAfter? 0 (']' :: rest) = none := rfl
            simp only [hnone, balance_close, reduceCtorEq, false_iff, not_and]
            intro h
            have hfirst := h 0
            rw [balance_zero] at hfirst
            omega
        | succ d =>
            rw [depthAfter?_close_succ, ih]
            simp only [balance_close]
            exact and_congr (forall_congr' fun n => by omega) (by omega)
      · rw [depthAfter?_flat hflat, ih]
        simp only [balance_flat hflat]

theorem balance_of_depth {cs : List Char} {e : Nat} (h : depthAfter? 0 cs = some e) :
    (∀ n, 0 ≤ balance cs n) ∧ balance cs cs.length = e := by
  have hbalance := depthAfter?_eq_some_iff.mp h
  simpa using hbalance

theorem depth_of_balance {cs : List Char} {e : Nat} (hnonneg : ∀ n, 0 ≤ balance cs n)
    (htotal : balance cs cs.length = e) : depthAfter? 0 cs = some e :=
  depthAfter?_eq_some_iff.mpr (by simpa using And.intro hnonneg htotal)

theorem balance_split (front back : List Char) (c : Char) (n : Nat) :
    balance (front ++ c :: back) (front.length + 1 + n) =
      balance front front.length + balance (c :: back) (n + 1) := by
  have hrest : front.length + 1 + n - front.length = n + 1 := by omega
  rw [balance_append, balance_of_length_le (by omega), hrest]

theorem balance_front (front back : List Char) {n : Nat} (h : n ≤ front.length) :
    balance (front ++ back) n = balance front n := by
  have hrest : n - front.length = 0 := by omega
  rw [balance_append, hrest, balance_zero, Int.add_zero]

theorem nonneg_front {front back : List Char}
    (h : ∀ n ≤ front.length, 0 ≤ balance (front ++ back) n) (n : Nat) :
    0 ≤ balance front n := by
  rcases Nat.le_total n front.length with hle | hge
  · have hn := h n hle
    rwa [balance_front front back hle] at hn
  · have hlen := h front.length (Nat.le_refl _)
    rwa [balance_front front back (Nat.le_refl _), ← balance_of_length_le hge] at hlen

/-- The balance falls at closing brackets only, by one. -/
theorem close_of_balance_lt {cs : List Char} {i : Nat}
    (h : balance cs (i + 1) < balance cs i) :
    cs[i]? = some ']' ∧ balance cs (i + 1) = balance cs i - 1 := by
  cases hi : cs[i]? with
  | none =>
      have hlen : cs.length ≤ i := List.getElem?_eq_none_iff.mp hi
      rw [balance_of_length_le (by omega), balance_of_length_le hlen] at h
      exact absurd h (Int.lt_irrefl _)
  | some c =>
      obtain ⟨front, back, rfl, rfl⟩ := exists_split_of_getElem? hi
      have hbefore := balance_front front (c :: back) (Nat.le_refl _)
      have hbehind := balance_split front back c 0
      rw [Nat.add_zero] at hbehind
      rcases char_cases c with rfl | rfl | hflat
      · rw [balance_open, balance_zero] at hbehind
        omega
      · rw [balance_close, balance_zero] at hbehind
        exact ⟨rfl, by omega⟩
      · rw [balance_flat hflat, balance_zero] at hbehind
        omega

/-- A bracket is unmatched where the balance first falls below zero. -/
theorem fault_unmatched_iff {cs : List Char} {i : Nat} :
    Fault cs (.unmatchedClose i) ↔ IsLeast {i | balance cs (i + 1) < 0} i := by
  constructor
  · rintro (⟨front, back, rfl, hdepth⟩ | _)
    obtain ⟨hnonneg, htotal⟩ := balance_of_depth hdepth
    refine ⟨?_, fun j hj => ?_⟩
    · have hbehind := balance_split front back ']' 0
      rw [balance_close, balance_zero, htotal] at hbehind
      show balance _ (front.length + 1) < 0
      rw [Nat.add_zero] at hbehind
      omega
    · by_contra hlt
      have hfront := balance_front front (']' :: back) (n := j + 1) (by omega)
      have hneg : balance (front ++ ']' :: back) (j + 1) < 0 := hj
      have := hnonneg (j + 1)
      omega
  · rintro ⟨hneg, hleast⟩
    have hneg : balance cs (i + 1) < 0 := hneg
    have hbefore : ∀ n ≤ i, 0 ≤ balance cs n := by
      intro n hn
      cases n with
      | zero => rw [balance_zero]
      | succ n =>
          by_contra hlt
          have := hleast
            (show n ∈ {i | balance cs (i + 1) < 0} from by simpa using hlt)
          omega
    have hi := hbefore i (Nat.le_refl i)
    have hfall : balance cs (i + 1) < balance cs i := by omega
    obtain ⟨hclose, hstep⟩ := close_of_balance_lt hfall
    obtain ⟨front, back, rfl, rfl⟩ := exists_split_of_getElem? hclose
    refine .unmatched front back rfl (depth_of_balance (fun n => ?_) ?_)
    · exact nonneg_front hbefore n
    · rw [balance_front front _ (Nat.le_refl _)] at hi hstep
      omega

/-! ## The outermost unclosed bracket

If the text ends inside a loop, the pass names the place where the outermost
open loop began. In terms of the balance nothing is open in front of that
bracket, and the balance stays above zero behind it. In terms of partners it
is the first opening bracket without one. Both describe the fault exactly. -/

/-- A bracket is the outermost unclosed one if nothing is open in front of it, and
behind it the balance never comes back to zero. -/
theorem fault_unclosed_iff {cs : List Char} {p : Nat} :
    Fault cs (.unclosedOpen p) ↔ (∀ n, 0 ≤ balance cs n) ∧ cs[p]? = some '[' ∧
      balance cs p = 0 ∧ ∀ j, p < j → 0 < balance cs j := by
  constructor
  · rintro (_ | ⟨front, back, d, rfl, hdepth, hbehind⟩)
    obtain ⟨hfront, htotal⟩ := balance_of_depth hdepth
    obtain ⟨hback, -⟩ := balance_of_depth hbehind
    have hinside : ∀ j, front.length < j → 0 < balance (front ++ '[' :: back) j := by
      intro j hj
      obtain ⟨k, rfl⟩ := Nat.exists_eq_add_of_le hj
      have hk := hback k
      rw [balance_split, balance_open, htotal]
      omega
    refine ⟨fun n => ?_, by simp, ?_, hinside⟩
    · rcases Nat.lt_or_ge front.length n with hlt | hle
      · exact Int.le_of_lt (hinside n hlt)
      · rw [balance_front front _ hle]
        exact hfront n
    · rw [balance_front front _ (Nat.le_refl _), htotal]
      rfl
  · rintro ⟨hnonneg, hopen, hzero, hinside⟩
    obtain ⟨front, back, rfl, rfl⟩ := exists_split_of_getElem? hopen
    rw [balance_front front _ (Nat.le_refl _)] at hzero
    have hback : ∀ n, 0 ≤ balance back n := by
      intro n
      have hn := hinside (front.length + 1 + n) (by omega)
      rw [balance_split, balance_open, hzero] at hn
      omega
    have hend := hback back.length
    refine .unclosed front back (balance back back.length).toNat rfl
      (depth_of_balance (nonneg_front fun n _ => hnonneg n) hzero)
        (depth_of_balance hback ?_)
    omega

theorem balance_renderAll (t : List Node) {n : Nat}
    (h : (Node.renderAll t).length ≤ n) : balance (Node.renderAll t) n = 0 := by
  rw [balance_of_length_le h, (balance_of_depth (depthAfter?_renderAll 0 t)).2]
  rfl

/-- Behind a loop the balance is what it was before it. -/
theorem Partners.balance_eq {cs : List Char} {i j : Nat} (h : Partners cs i j) :
    balance cs (j + 1) = balance cs i := by
  obtain ⟨front, body, back, rfl, rfl, rfl⟩ := h
  have hplace : front.length + 1 + (Node.renderAll body).length + 1 =
      front.length + 1 + ((Node.renderAll body).length + 1) := by omega
  have hrest : (Node.renderAll body).length + 1 - (Node.renderAll body).length =
      0 + 1 := by omega
  rw [hplace, balance_split, balance_open, balance_append,
    balance_renderAll body (by omega), hrest, balance_close, balance_zero,
    balance_front front _ (Nat.le_refl _)]
  omega

/-- The bracket is the beginning of a loop that has no end. -/
def IsUnclosed (cs : List Char) (p : Nat) : Prop :=
  cs[p]? = some '[' ∧ ∀ j, ¬ Partners cs p j

theorem Fault.isLeast_unclosed {cs : List Char} {p : Nat}
    (h : Fault cs (.unclosedOpen p)) : IsLeast {p | IsUnclosed cs p} p := by
  obtain ⟨-, hopen, hzero, hinside⟩ := fault_unclosed_iff.mp h
  refine ⟨⟨hopen, fun j hj => ?_⟩, fun q hq => ?_⟩
  · have hbehind := hinside (j + 1) (Nat.lt_succ_of_lt hj.lt)
    rw [hj.balance_eq, hzero] at hbehind
    exact absurd hbehind (Int.lt_irrefl 0)
  · -- A bracket in front of it stands in a balanced text, and has its partner there.
    obtain ⟨hq, halone⟩ := hq
    by_contra hlt
    obtain _ | ⟨front, back, d, rfl, hdepth, -⟩ := h
    rw [List.getElem?_append_left (by omega)] at hq
    obtain ⟨j, hj⟩ := exists_partner_of_open hdepth hq
    have hwhole := hj.embed [] ('[' :: back)
    simp only [List.nil_append, List.length_nil, Nat.zero_add] at hwhole
    exact halone j hwhole

theorem exists_fault_unclosed {cs : List Char} (hnonneg : ∀ n, 0 ≤ balance cs n)
    (hopen : 0 < balance cs cs.length) : ∃ p, Fault cs (.unclosedOpen p) := by
  obtain ⟨d, hd⟩ : ∃ d : Nat, balance cs cs.length = (d + 1 : Nat) :=
    ⟨(balance cs cs.length).toNat - 1, by omega⟩
  have hdepth := depth_of_balance hnonneg hd
  obtain ⟨front, back, hsplit, hfront, hback⟩ :=
    exists_outermost (opens_of_depthAfter? hdepth)
  exact ⟨front.length, .unclosed front back d hsplit hfront hback⟩

/-- The outermost unclosed bracket is the first that has no partner. -/
theorem fault_unclosed_iff_isLeast {cs : List Char} {p : Nat} :
    Fault cs (.unclosedOpen p) ↔ (∀ n, 0 ≤ balance cs n) ∧ 0 < balance cs cs.length ∧
      IsLeast {p | IsUnclosed cs p} p := by
  constructor
  · intro h
    obtain ⟨hnonneg, hopen, -, hinside⟩ := fault_unclosed_iff.mp h
    have hlt : p < cs.length := (List.getElem?_eq_some_iff.mp hopen).1
    exact ⟨hnonneg, hinside cs.length hlt, h.isLeast_unclosed⟩
  · rintro ⟨hnonneg, hopen, hleast⟩
    obtain ⟨q, hq⟩ := exists_fault_unclosed hnonneg hopen
    rwa [hleast.unique hq.isLeast_unclosed]

/-! ## The largest depth

The pass keeps the largest depth that it has reached. `Peaks` says of any part
of a text that this is the largest balance in it, counted from the depth in
front of the part, so that parts can be put together. -/

/-- Where `d` loops are open in front of the text and `seen` is the most that have
been open so far, `k` is the most that have been open when the text has been read.
-/
structure Peaks (d seen k : Nat) (cs : List Char) : Prop where
  seen_le : seen ≤ k
  le : ∀ j, d + balance cs j ≤ k
  reached : k = seen ∨ ∃ j, d + balance cs j = k

theorem Peaks.append {d e seen mid k : Nat} {xs ys : List Char}
    (hx : Peaks d seen mid xs) (he : (d + balance xs xs.length : Int) = e)
    (hy : Peaks e mid k ys) : Peaks d seen k (xs ++ ys) where
  seen_le := Nat.le_trans hx.seen_le hy.seen_le
  le := by
    intro j
    have hmid := hy.seen_le
    rcases Nat.le_total j xs.length with hle | hge
    · have hj := hx.le j
      rw [balance_front xs ys hle]
      omega
    · have hj := hy.le (j - xs.length)
      rw [balance_append, balance_of_length_le hge]
      omega
  reached := by
    rcases hy.reached with hmid | ⟨j, hj⟩
    · rcases hx.reached with hseen | ⟨j, hj⟩
      · exact Or.inl (hmid.trans hseen)
      · refine Or.inr ⟨min j xs.length, ?_⟩
        rw [balance_front xs ys (Nat.min_le_right ..), ← balance_take,
          List.take_length, hj, hmid]
    · refine Or.inr ⟨xs.length + j, ?_⟩
      rw [balance_append, balance_of_length_le (Nat.le_add_right ..),
        Nat.add_sub_cancel_left]
      omega

theorem peaks_nil {d seen : Nat} (h : d ≤ seen) : Peaks d seen seen [] where
  seen_le := Nat.le_refl _
  le := by
    intro j
    rw [balance_nil]
    omega
  reached := Or.inl rfl

theorem balance_singleton_succ (c : Char) (j : Nat) :
    balance [c] (j + 1) = balance [c] 1 :=
  balance_of_length_le (by simp)

/-- One character that begins no loop. -/
theorem peaks_singleton {d seen : Nat} {c : Char} (h : d ≤ seen) (hc : c ≠ '[') :
    Peaks d seen seen [c] where
  seen_le := Nat.le_refl _
  le := by
    have hc' : balance [c] 1 ≤ 0 := by simp [balance, hc]
    intro j
    cases j with
    | zero =>
        rw [balance_zero]
        omega
    | succ j =>
        rw [balance_singleton_succ]
        omega
  reached := Or.inl rfl

theorem peaks_open {d seen : Nat} (h : d ≤ seen) :
    Peaks d seen (max seen (d + 1)) ['['] where
  seen_le := Nat.le_max_left ..
  le := by
    intro j
    cases j with
    | zero =>
        rw [balance_zero]
        omega
    | succ j =>
        rw [balance_open, balance_nil]
        omega
  reached := by
    rcases Nat.le_total (d + 1) seen with hbelow | habove
    · exact Or.inl (Nat.max_eq_left hbelow)
    · refine Or.inr ⟨1, ?_⟩
      rw [balance_open, balance_nil]
      omega

theorem Peaks.cons_open {d seen k : Nat} {cs : List Char} (h : d ≤ seen)
    (hcs : Peaks (d + 1) (max seen (d + 1)) k cs) : Peaks d seen k ('[' :: cs) := by
  have hdepth : (d + balance ['['] 1 : Int) = (d + 1 : Nat) := by
    rw [balance_open, balance_nil]
    omega
  exact (peaks_open h).append hdepth hcs

theorem Peaks.cons_close {d seen k : Nat} {cs : List Char} (h : d + 1 ≤ seen)
    (hcs : Peaks d seen k cs) : Peaks (d + 1) seen k (']' :: cs) := by
  have hdepth : ((d + 1 : Nat) + balance [']'] 1 : Int) = d := by
    rw [balance_close, balance_nil]
    omega
  exact (peaks_singleton h (by decide)).append hdepth hcs

theorem Peaks.cons_flat {d seen k : Nat} {c : Char} {cs : List Char} (hflat : IsFlat c)
    (h : d ≤ seen) (hcs : Peaks d seen k cs) : Peaks d seen k (c :: cs) := by
  have hdepth : (d + balance [c] 1 : Int) = d := by
    rw [balance_flat hflat, balance_nil, Int.add_zero]
  exact (peaks_singleton h hflat.1).append hdepth hcs

/-- A pass that gets to the end has kept the largest depth. -/
theorem peaks_of_scan {n : Nesting} {position k : Nat} {cs : List Char}
    (hn : n.depth ≤ n.deepest) (h : n.scan position cs = .ok k) :
    Peaks n.depth n.deepest k cs := by
  induction cs generalizing n position with
  | nil =>
      rw [Nesting.scan] at h
      split at h
      · cases h
        exact peaks_nil hn
      · cases h
  | cons c rest ih =>
      rcases char_cases c with rfl | rfl | hflat
      · exact .cons_open hn (ih (n := n.enter position) (Nat.le_max_right ..) h)
      · cases hd : n.depth with
        | zero =>
            rw [Nesting.scan, ofChar?_close] at h
            simp only [if_pos hd] at h
            cases h
        | succ d =>
            rw [hd] at hn
            rw [scan_close (by omega)] at h
            have hrest := ih (n := { n with depth := n.depth - 1 }) (by simp; omega) h
            simp only [hd, Nat.add_sub_cancel] at hrest
            exact .cons_close hn hrest
      · rw [scan_flat hflat] at h
        exact .cons_flat hflat hn (ih hn h)

@[simp]
theorem Node.depthAll_action (a : Action) (rest : List Node) :
    Node.depthAll (.action a :: rest) = Node.depthAll rest := by
  rw [Node.depthAll, Node.depth, Nat.zero_max]

@[simp]
theorem Node.depthAll_comment (c : Comment) (rest : List Node) :
    Node.depthAll (.comment c :: rest) = Node.depthAll rest := by
  rw [Node.depthAll, Node.depth, Nat.zero_max]

@[simp]
theorem Node.depthAll_loop (body rest : List Node) :
    Node.depthAll (.loop body :: rest) =
      max (Node.depthAll body + 1) (Node.depthAll rest) := by
  rw [Node.depthAll, Node.depth]

/-- A tree takes the depth as far up as its loops lie inside each other. -/
theorem peaks_renderAll {d seen : Nat} (h : d ≤ seen) (t : List Node) :
    Peaks d seen (max seen (d + Node.depthAll t)) (Node.renderAll t) := by
  induction t using Node.seqInduction generalizing d seen with
  | nil =>
      rw [Node.renderAll_nil, Node.depthAll, Nat.add_zero, Nat.max_eq_left h]
      exact peaks_nil h
  | action a rest ih =>
      rw [Node.renderAll_action, Node.depthAll_action]
      exact .cons_flat (isFlat_symbol a) h (ih h)
  | comment c rest ih =>
      rw [Node.renderAll_comment, Node.depthAll_comment]
      exact .cons_flat c.isFlat h (ih h)
  | loop body rest ihb ih =>
      have hbody := @ihb (d + 1) (max seen (d + 1)) (by omega)
      have hrest :=
        @ih d (max (max seen (d + 1)) (d + 1 + Node.depthAll body)) (by omega)
      have hmax : max (max (max seen (d + 1)) (d + 1 + Node.depthAll body))
          (d + Node.depthAll rest) =
            max seen (d + max (Node.depthAll body + 1) (Node.depthAll rest)) := by
              omega
      rw [hmax] at hrest
      rw [Node.renderAll_loop, Node.depthAll_loop]
      refine .cons_open h (hbody.append ?_ (.cons_close (by omega) hrest))
      rw [balance_renderAll body (Nat.le_refl _), Int.add_zero]

theorem Peaks.isGreatest {k : Nat} {cs : List Char} (h : Peaks 0 0 k cs) :
    IsGreatest (Set.range (balance cs)) k := by
  constructor
  · rcases h.reached with rfl | ⟨j, hj⟩
    · exact ⟨0, balance_zero cs⟩
    · exact ⟨j, by simpa using hj⟩
  · rintro _ ⟨j, rfl⟩
    simpa using h.le j

theorem isGreatest_depthAll (t : List Node) :
    IsGreatest (Set.range (balance (Node.renderAll t))) (Node.depthAll t : Int) := by
  have hpeaks := peaks_renderAll (Nat.le_refl 0) t
  rw [Nat.zero_add, Nat.zero_max] at hpeaks
  exact hpeaks.isGreatest

theorem nestingDepth_eq_ok_iff (source : String) (k : Nat) :
    nestingDepth source = .ok k ↔
      (∀ n, 0 ≤ balance source.toList n) ∧
        balance source.toList source.toList.length = 0 ∧
        IsGreatest (Set.range (balance source.toList)) k := by
  have hgreatest : ∀ {k}, nestingDepth source = .ok k →
      IsGreatest (Set.range (balance source.toList)) (k : Int) := by
    intro k h
    exact (peaks_of_scan (n := {}) (Nat.le_refl 0) h).isGreatest
  constructor
  · intro h
    have hbalanced : isBalanced source = true := by
      rw [isBalanced, h]
      rfl
    obtain ⟨hnonneg, htotal⟩ :=
      balance_of_depth ((isBalanced_iff_depth source).mp hbalanced)
    exact ⟨hnonneg, htotal, hgreatest h⟩
  · rintro ⟨hnonneg, htotal, hk⟩
    have hbalanced :=
      (isBalanced_iff_depth source).mpr (depth_of_balance hnonneg htotal)
    rw [isBalanced] at hbalanced
    cases hdepth : nestingDepth source with
    | error e =>
        rw [hdepth] at hbalanced
        cases hbalanced
    | ok k' =>
        have hunique := hk.unique (hgreatest hdepth)
        rw [Int.ofNat_inj.mp hunique]

/-- What the pass answers for a program is how far its loops lie inside each other. -/
theorem nestingDepth_eq_ok_iff_tree (source : String) (k : Nat) :
    nestingDepth source = .ok k ↔ ∃ t, source.toList = Node.renderAll t ∧
      k = Node.depthAll t := by
  rw [nestingDepth_eq_ok_iff]
  constructor
  · rintro ⟨hnonneg, htotal, hk⟩
    obtain ⟨t, ht⟩ := (depthAfter?_eq_zero_iff _).mp (depth_of_balance hnonneg htotal)
    rw [ht] at hk
    exact ⟨t, ht, Int.ofNat_inj.mp (hk.unique (isGreatest_depthAll t))⟩
  · rintro ⟨t, ht, rfl⟩
    obtain ⟨hnonneg, htotal⟩ := balance_of_depth (depthAfter?_renderAll 0 t)
    rw [ht]
    exact ⟨hnonneg, htotal, isGreatest_depthAll t⟩

theorem isBalanced_iff_balance (source : String) :
    isBalanced source = true ↔
      (∀ n, 0 ≤ balance source.toList n) ∧
        balance source.toList source.toList.length = 0 := by
  rw [isBalanced_iff_depth]
  constructor
  · intro h
    exact balance_of_depth h
  · rintro ⟨hnonneg, htotal⟩
    exact depth_of_balance hnonneg htotal

/-- The validator refuses the source with these words. -/
def Complains (source text : String) : Prop :=
  ∃ e, nestingDepth source = .error e ∧ e.message = text

/-- The two complaints differ in their third characters, whatever the positions are. -/
theorem message_unmatched_ne_unclosed (i p : Nat) :
    (Malformed.unmatchedClose i).message ≠ (Malformed.unclosedOpen p).message := by
  intro h
  have htexts : "Unmatched ']' at position " ++ toString i =
      "Unclosed '[' at position " ++ toString p := h
  have hthird := congrArg (fun s => s.toList[2]?) htexts
  simp only [String.toList_append] at hthird
  rw [List.getElem?_append_left (by decide),
    List.getElem?_append_left (by decide)] at hthird
  exact absurd hthird (by decide)

theorem message_injective {e e' : Malformed} (h : e.message = e'.message) :
    e = e' := by
  cases e with
  | unmatchedClose i =>
      cases e' with
      | unmatchedClose j =>
          have htexts : "Unmatched ']' at position " ++ toString i =
              "Unmatched ']' at position " ++ toString j := h
          rw [Codegen.toString_injective (Codegen.append_left_injective htexts)]
      | unclosedOpen p => exact absurd h (message_unmatched_ne_unclosed i p)
  | unclosedOpen p =>
      cases e' with
      | unmatchedClose i => exact absurd h.symm (message_unmatched_ne_unclosed i p)
      | unclosedOpen q =>
          have htexts : "Unclosed '[' at position " ++ toString p =
              "Unclosed '[' at position " ++ toString q := h
          rw [Codegen.toString_injective (Codegen.append_left_injective htexts)]

theorem complains_iff (source : String) (e : Malformed) :
    Complains source e.message ↔ Fault source.toList e := by
  rw [← nestingDepth_eq_error_iff]
  constructor
  · rintro ⟨e', he', hmessage⟩
    rwa [message_injective hmessage] at he'
  · intro h
    exact ⟨e, h, rfl⟩

/-- What the validator says about a source, said by counting brackets in its
prefixes. -/
theorem nestingDepth_by_balance (source : String) :
    (∀ i, Complains source s!"Unmatched ']' at position {i}" ↔
      IsLeast {i | balance source.toList (i + 1) < 0} i) ∧
    (∀ p, Complains source s!"Unclosed '[' at position {p}" ↔
      (∀ n, 0 ≤ balance source.toList n) ∧
        0 < balance source.toList source.toList.length ∧
        IsLeast {p | IsUnclosed source.toList p} p) ∧
    (∀ p, Complains source s!"Unclosed '[' at position {p}" ↔
      (∀ n, 0 ≤ balance source.toList n) ∧ source.toList[p]? = some '[' ∧
        balance source.toList p = 0 ∧ ∀ j, p < j → 0 < balance source.toList j) ∧
    (∀ k, nestingDepth source = .ok k ↔
      (∀ n, 0 ≤ balance source.toList n) ∧
        balance source.toList source.toList.length = 0 ∧
        IsGreatest (Set.range (balance source.toList)) k) ∧
    (∀ k, nestingDepth source = .ok k ↔
      ∃ t, source.toList = Node.renderAll t ∧ k = Node.depthAll t) ∧
    (isBalanced source = true ↔
      (∀ n, 0 ≤ balance source.toList n) ∧
        balance source.toList source.toList.length = 0) :=
  ⟨fun i => (complains_iff source (.unmatchedClose i)).trans fault_unmatched_iff,
    fun p => (complains_iff source (.unclosedOpen p)).trans fault_unclosed_iff_isLeast,
    fun p => (complains_iff source (.unclosedOpen p)).trans fault_unclosed_iff,
    nestingDepth_eq_ok_iff source, nestingDepth_eq_ok_iff_tree source,
    isBalanced_iff_balance source⟩

end TapeMips.Source
