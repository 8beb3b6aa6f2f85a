import TapeMips.Text.Layout

/-!
# Cutting a text into lines

No line holds a line end (`not_isLineEnd_of_mem_lines`). A text that stops where
one of its lines does can be cut into lines without what comes behind it
(`lines_append`). The exception is a carriage return in front of a line feed,
since the two are one end and neither text would have all of it.
-/

namespace TapeMips.Text

theorem not_isLineEnd_of_mem_linesFrom {begun cs line : List Char}
    (hbegun : ∀ c ∈ begun, isLineEnd c = false) (hline : line ∈ linesFrom begun cs) :
    ∀ c ∈ line, isLineEnd c = false := by
  have hended : ∀ begun : List Char, (∀ c ∈ begun, isLineEnd c = false) →
      ∀ c ∈ begun.reverse, isLineEnd c = false :=
    fun begun h c hc => h c (List.mem_reverse.mp hc)
  fun_induction linesFrom begun cs with
  | case1 => cases hline
  | case2 begun hne =>
      rw [List.mem_singleton.mp hline]
      exact hended begun hbegun
  | case3 begun rest ih =>
      rcases List.mem_cons.mp hline with rfl | hline
      · exact hended begun hbegun
      · exact ih (by simp) hline
  | case4 begun c rest _ hend ih =>
      rcases List.mem_cons.mp hline with rfl | hline
      · exact hended begun hbegun
      · exact ih (by simp) hline
  | case5 begun c rest _ hend ih =>
      refine ih ?_ hline
      intro d hd
      rcases List.mem_cons.mp hd with rfl | hd
      · exact eq_false_of_ne_true hend
      · exact hbegun d hd

theorem not_isLineEnd_of_mem_lines {cs line : List Char} (h : line ∈ lines cs) :
    ∀ c ∈ line, isLineEnd c = false :=
  not_isLineEnd_of_mem_linesFrom (fun _ hc => absurd hc List.not_mem_nil) h

theorem linesFrom_append {line : List Char} (h : ∀ c ∈ line, isLineEnd c = false)
    (begun rest : List Char) :
    linesFrom begun (line ++ '\n' :: rest) = (begun.reverse ++ line) ::
      linesFrom [] rest := by
  induction line generalizing begun with
  | nil =>
      rw [List.nil_append, List.append_nil, linesFrom.eq_def]
      rfl
  | cons c line ih =>
      have hc : isLineEnd c = false := h c List.mem_cons_self
      have hcr : c ≠ '\r' := by
        rintro rfl
        cases hc
      rw [List.cons_append, linesFrom, if_neg (by rw [hc]; decide),
        ih fun c' hc' => h c' (List.mem_cons_of_mem c hc')]
      · rw [List.reverse_cons, List.append_assoc, List.singleton_append]
      · intro _ hc' _
        exact hcr hc'

/-- No carriage return at the end of the first text meets a line feed in the second. -/
def MeetApart (xs ys : List Char) : Prop :=
  xs.getLast? = some '\r' → ys.head? ≠ some '\n'

theorem getLast?_cons_of_eq_some {c d : Char} {xs : List Char}
    (h : xs.getLast? = some d) : (c :: xs).getLast? = some d := by
  rw [List.getLast?_cons, h]
  rfl

theorem MeetApart.tail {c : Char} {xs ys : List Char} (h : MeetApart (c :: xs) ys) :
    MeetApart xs ys :=
  fun hlast => h (getLast?_cons_of_eq_some hlast)

/-- A character that begins no line end of two characters in the first text begins
none across the seam. -/
theorem MeetApart.single {c : Char} {xs ys : List Char} (h : MeetApart (c :: xs) ys)
    (hsingle : ∀ more, c = '\r' → xs = '\n' :: more → False) :
    ∀ more, c = '\r' → xs ++ ys = '\n' :: more → False := by
  intro more hc hmore
  cases xs with
  | nil =>
      rw [List.nil_append] at hmore
      exact h (by rw [hc]; rfl) (by rw [hmore]; rfl)
  | cons d rest =>
      obtain ⟨hd, -⟩ := List.cons.inj hmore
      exact hsingle rest hc (by rw [hd])

/-- A text stops where one of its lines ends, and the next text does not continue
that end. -/
structure StopsBefore (xs ys : List Char) : Prop where
  ends : ∀ c ∈ xs.getLast?, isLineEnd c = true
  apart : MeetApart xs ys

theorem StopsBefore.tail {c : Char} {xs ys : List Char}
    (h : StopsBefore (c :: xs) ys) : StopsBefore xs ys where
  ends := fun d hd => h.ends d (getLast?_cons_of_eq_some hd)
  apart := h.apart.tail

/-- The first text ends every line that it begins; one that had begun before it
needs a character there to end it. -/
theorem linesFrom_append_of_stops {begun xs ys : List Char} (h : StopsBefore xs ys)
    (hbegun : xs = [] → begun = []) :
    linesFrom begun (xs ++ ys) = linesFrom begun xs ++ linesFrom [] ys := by
  fun_induction linesFrom begun xs with
  | case1 begun =>
      rw [hbegun rfl]
      rfl
  | case2 begun hne => exact absurd (by rw [hbegun rfl]; rfl) hne
  | case3 begun rest ih =>
      rw [List.cons_append, List.cons_append, linesFrom, ih h.tail.tail fun _ => rfl]
      rfl
  | case4 begun c rest hsingle hend ih =>
      rw [List.cons_append, linesFrom, if_pos hend, ih h.tail fun _ => rfl]
      · rfl
      · exact h.apart.single hsingle
  | case5 begun c rest _ hend ih =>
      rw [List.cons_append, linesFrom, if_neg hend, ih h.tail]
      · rintro rfl
        exact absurd (h.ends c rfl) hend
      · rintro more rfl -
        exact hend (by decide)

/-- The lines of two texts, where the first stops with a line. -/
theorem lines_append {xs ys : List Char} (h : StopsBefore xs ys) :
    lines (xs ++ ys) = lines xs ++ lines ys :=
  linesFrom_append_of_stops h fun _ => rfl

end TapeMips.Text
