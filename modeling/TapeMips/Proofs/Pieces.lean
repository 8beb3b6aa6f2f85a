import TapeMips.Text.Layout

/-!
# Pieces of a text

Assembly lines, paths and headers are all read by cutting a text at a separator.
The cut is the one of the standard library (`splitAt_eq_splitOn`), so joining the
pieces gives the text back, and pieces that hold no separator are found again
when their joined text is cut.

Most readers also take away the blanks around what they read. Trimming splits a
text into blanks, what is kept, and blanks again (`trim_split`), and there is only
one way to do so (`trim_of_split`). A reader that trims its pieces reads the same
from a text whether or not the whole of it was trimmed before
(`map_trim_splitAt_trim`).
-/

namespace TapeMips.Text

theorem splitAt_eq_splitOn (separator : Char) (cs : List Char) :
    splitAt separator cs = cs.splitOn separator := by
  induction cs with
  | nil => rfl
  | cons c rest ih =>
      rw [splitAt, List.splitOn_cons_eq_if_modifyHead, ih]
      by_cases hc : c = separator
      · rw [if_pos hc, if_pos (beq_iff_eq.mpr hc)]
      · rw [if_neg hc, if_neg (by simpa using hc)]
        obtain ⟨piece, pieces, hpieces⟩ :=
          List.exists_cons_of_ne_nil (List.splitOn_ne_nil separator rest)
        rw [hpieces]
        rfl

theorem splitAt_ne_nil (separator : Char) (cs : List Char) :
    splitAt separator cs ≠ [] := by
  rw [splitAt_eq_splitOn]
  exact List.splitOn_ne_nil separator cs

theorem splitAt_of_notMem {separator : Char} {cs : List Char} (h : separator ∉ cs) :
    splitAt separator cs = [cs] := by
  rw [splitAt_eq_splitOn, List.splitOn_eq_singleton h]

theorem splitAt_append {separator : Char} {cs : List Char} (h : separator ∉ cs)
    (rest : List Char) :
    splitAt separator (cs ++ separator :: rest) = cs :: splitAt separator rest := by
  rw [splitAt_eq_splitOn, splitAt_eq_splitOn,
    List.splitOn_append_cons_self_of_not_mem h]

theorem intercalate_splitAt (separator : Char) (cs : List Char) :
    [separator].intercalate (splitAt separator cs) = cs := by
  rw [splitAt_eq_splitOn, List.intercalate_splitOn]

theorem splitAt_intercalate {separator : Char} {pieces : List (List Char)}
    (h : ∀ piece ∈ pieces, separator ∉ piece) (hne : pieces ≠ []) :
    splitAt separator ([separator].intercalate pieces) = pieces := by
  rw [splitAt_eq_splitOn, List.splitOn_intercalate separator h hne]

theorem of_mem_splitAt {separator : Char} {cs piece : List Char}
    (h : piece ∈ splitAt separator cs) : ∀ c ∈ piece, c ∈ cs ∧ c ≠ separator := by
  rw [splitAt_eq_splitOn] at h
  induction cs generalizing piece with
  | nil =>
      rw [List.splitOn_nil, List.mem_singleton] at h
      simp [h]
  | cons d rest ih =>
      have ih' : ∀ p ∈ rest.splitOn separator, ∀ c ∈ p, c ∈ d :: rest ∧
          c ≠ separator :=
        fun p hp c hc => ⟨List.mem_cons_of_mem d (ih hp c hc).1, (ih hp c hc).2⟩
      rw [List.splitOn_cons_eq_if_modifyHead] at h
      split at h
      · rcases List.mem_cons.mp h with rfl | h
        · simp
        · exact ih' piece h
      · next hd =>
          obtain ⟨first, pieces, hpieces⟩ :=
            List.exists_cons_of_ne_nil (List.splitOn_ne_nil separator rest)
          rw [hpieces] at h ih'
          rcases List.mem_cons.mp h with rfl | h
          · intro c hc
            rcases List.mem_cons.mp hc with rfl | hc
            · exact ⟨List.mem_cons_self, by simpa using hd⟩
            · exact ih' first List.mem_cons_self c hc
          · exact ih' piece (List.mem_cons_of_mem first h)

theorem notMem_of_mem_splitAt {separator : Char} {cs piece : List Char}
    (h : piece ∈ splitAt separator cs) : separator ∉ piece :=
  fun hmem => (of_mem_splitAt h separator hmem).2 rfl

/-- What is added behind a text without a separator in it is added to the last
piece. -/
theorem splitAt_append_of_notMem {separator : Char} {tail : List Char}
    (h : separator ∉ tail) (cs : List Char) :
    ∃ front last, splitAt separator cs = front ++ [last] ∧
      splitAt separator (cs ++ tail) = front ++ [last ++ tail] := by
  induction cs with
  | nil => exact ⟨[], [], rfl, splitAt_of_notMem h⟩
  | cons c rest ih =>
      obtain ⟨front, last, hrest, happend⟩ := ih
      rw [List.cons_append, splitAt, splitAt, hrest, happend]
      by_cases hc : c = separator
      · rw [if_pos hc, if_pos hc]
        exact ⟨[] :: front, last, rfl, rfl⟩
      · rw [if_neg hc, if_neg hc]
        cases front with
        | nil => exact ⟨[], c :: last, rfl, rfl⟩
        | cons first front => exact ⟨(c :: first) :: front, last, rfl, rfl⟩

theorem dropWhile_of_head {p : Char → Bool} {cs : List Char}
    (h : ∀ c ∈ cs.head?, p c = false) : cs.dropWhile p = cs := by
  cases cs with
  | nil => rfl
  | cons c rest => exact List.dropWhile_cons_of_neg (by rw [h c rfl]; decide)

theorem head?_dropWhile (p : Char → Bool) (cs : List Char) :
    ∀ c ∈ (cs.dropWhile p).head?, p c = false := by
  intro c hc
  have hnot := List.head?_dropWhile_not p cs
  rw [Option.mem_def.mp hc] at hnot
  simpa using hnot

/-- A text between blanks that neither begins nor ends with one is what trimming
leaves. -/
theorem trim_of_split {lead kept tail : List Char}
    (hlead : ∀ c ∈ lead, isBlank c = true) (htail : ∀ c ∈ tail, isBlank c = true)
    (hhead : ∀ c ∈ kept.head?, isBlank c = false)
    (hlast : ∀ c ∈ kept.getLast?, isBlank c = false) :
    trim (lead ++ (kept ++ tail)) = kept := by
  have hfront : (kept ++ tail).dropWhile isBlank =
      if kept = [] then [] else kept ++ tail := by
    cases kept with
    | nil =>
        rw [List.nil_append, ← List.append_nil tail,
          List.dropWhile_append_of_pos htail]
        rfl
    | cons c rest => exact dropWhile_of_head fun c' hc' => hhead c' hc'
  have hback : ∀ c ∈ kept.reverse.head?, isBlank c = false := by
    rwa [List.head?_reverse]
  rw [trim, trimBy, List.dropWhile_append_of_pos hlead, hfront]
  split
  · next hkept => rw [hkept]; rfl
  · rw [List.reverse_append, List.dropWhile_append_of_pos (by simpa using htail),
      dropWhile_of_head hback, List.reverse_reverse]

theorem trim_split (cs : List Char) :
    ∃ lead tail, cs = lead ++ (trim cs ++ tail) ∧ (∀ c ∈ lead, isBlank c = true) ∧
      (∀ c ∈ tail, isBlank c = true) ∧ (∀ c ∈ (trim cs).head?, isBlank c = false) ∧
      ∀ c ∈ (trim cs).getLast?, isBlank c = false := by
  have hback : cs.dropWhile isBlank =
      trim cs ++ ((cs.dropWhile isBlank).reverse.takeWhile isBlank).reverse := by
    rw [trim, trimBy, ← List.reverse_append, List.takeWhile_append_dropWhile,
      List.reverse_reverse]
  refine ⟨cs.takeWhile isBlank,
    ((cs.dropWhile isBlank).reverse.takeWhile isBlank).reverse, ?_, ?_, ?_, ?_, ?_⟩
  · rw [← hback, List.takeWhile_append_dropWhile]
  · exact List.all_eq_true.mp List.all_takeWhile
  · intro c hc
    exact List.all_eq_true.mp List.all_takeWhile c (List.mem_reverse.mp hc)
  · intro c hc
    refine head?_dropWhile isBlank cs c ?_
    rw [hback, List.head?_append, Option.mem_def.mp hc]
    rfl
  · rw [trim, trimBy, List.getLast?_reverse]
    exact head?_dropWhile isBlank _

theorem trim_eq_self {cs : List Char} (hhead : ∀ c ∈ cs.head?, isBlank c = false)
    (hlast : ∀ c ∈ cs.getLast?, isBlank c = false) : trim cs = cs := by
  have hnone : ∀ c ∈ ([] : List Char), isBlank c = true := by simp
  have h := trim_of_split hnone hnone hhead hlast
  rwa [List.append_nil, List.nil_append] at h

theorem trim_of_solid {cs : List Char} (h : ∀ c ∈ cs, isBlank c = false) :
    trim cs = cs :=
  trim_eq_self (fun c hc => h c (List.mem_of_mem_head? hc))
    (fun c hc => h c (List.mem_of_mem_getLast? hc))

theorem trim_trim (cs : List Char) : trim (trim cs) = trim cs := by
  obtain ⟨_, _, _, _, _, hhead, hlast⟩ := trim_split cs
  exact trim_eq_self hhead hlast

theorem mem_of_mem_trim {cs : List Char} {c : Char} (h : c ∈ trim cs) : c ∈ cs := by
  obtain ⟨lead, tail, hcs, _⟩ := trim_split cs
  rw [hcs]
  exact List.mem_append_right lead (List.mem_append_left tail h)

theorem trim_eq_nil_iff {cs : List Char} :
    trim cs = [] ↔ ∀ c ∈ cs, isBlank c = true := by
  obtain ⟨lead, tail, hcs, hlead, htail, hhead, _⟩ := trim_split cs
  constructor
  · intro h c hc
    rw [hcs, h, List.nil_append] at hc
    rcases List.mem_append.mp hc with hc | hc
    · exact hlead c hc
    · exact htail c hc
  · intro h
    cases htrim : trim cs with
    | nil => rfl
    | cons c rest =>
        have hmem : c ∈ trim cs := by
          rw [htrim]
          exact List.mem_cons_self
        have hc := h c (mem_of_mem_trim hmem)
        rw [htrim] at hhead
        exact absurd hc (by rw [hhead c rfl]; decide)

theorem trim_cons_blank {c : Char} (h : isBlank c = true) (cs : List Char) :
    trim (c :: cs) = trim cs := by
  rw [trim, trimBy, List.dropWhile_cons_of_pos h]
  rfl

theorem trim_append_blanks {tail : List Char} (h : ∀ c ∈ tail, isBlank c = true)
    (cs : List Char) : trim (cs ++ tail) = trim cs := by
  obtain ⟨lead, tail', hcs, hlead, htail, hhead, hlast⟩ := trim_split cs
  have hblank : ∀ c ∈ tail' ++ tail, isBlank c = true := by
    intro c hc
    rcases List.mem_append.mp hc with hc | hc
    · exact htail c hc
    · exact h c hc
  calc trim (cs ++ tail)
      = trim (lead ++ (trim cs ++ (tail' ++ tail))) := by
        congr 1
        simpa using congrArg (· ++ tail) hcs
    _ = trim cs := trim_of_split hlead hblank hhead hlast

/-- Behind a word and a gap, only the blanks at the end of a text are trimmed. -/
theorem trim_word_append {word cs : List Char} (gap : Char) (hne : word ≠ [])
    (hword : ∀ c ∈ word, isBlank c = false) (hcs : trim cs ≠ []) :
    ∃ lead, (∀ c ∈ lead, isBlank c = true) ∧
      trim (word ++ gap :: cs) = word ++ (gap :: lead ++ trim cs) := by
  obtain ⟨lead, tail, hsplit, hlead, htail, _, hlast⟩ := trim_split cs
  have hhead : ∀ c ∈ (word ++ (gap :: lead ++ trim cs)).head?, isBlank c = false := by
    obtain ⟨first, rest, rfl⟩ := List.exists_cons_of_ne_nil hne
    rintro c ⟨⟩
    exact hword first List.mem_cons_self
  have hlast' : ∀ c ∈ (word ++ (gap :: lead ++ trim cs)).getLast?,
      isBlank c = false := by
    intro c hc
    refine hlast c ?_
    rw [← List.append_assoc, List.getLast?_append,
      List.getLast?_eq_some_getLast hcs, Option.some_or] at hc
    rwa [List.getLast?_eq_some_getLast hcs]
  have hnone : ∀ c ∈ ([] : List Char), isBlank c = true := by simp
  have htrim := trim_of_split hnone htail hhead hlast'
  refine ⟨lead, hlead, ?_⟩
  rw [← htrim]
  congr 1
  simpa using hsplit

theorem map_trim_splitAt_cons {separator c : Char} (hc : isBlank c = true)
    (hne : c ≠ separator) (cs : List Char) :
    (splitAt separator (c :: cs)).map trim = (splitAt separator cs).map trim := by
  obtain ⟨piece, pieces, h⟩ := List.exists_cons_of_ne_nil (splitAt_ne_nil separator cs)
  rw [splitAt, if_neg hne, h, List.map_cons, List.map_cons, trim_cons_blank hc]

/-- Pieces are trimmed anyway, so it does not matter whether the whole text was
trimmed before. -/
theorem map_trim_splitAt_trim {separator : Char} (hsolid : isBlank separator = false)
    (cs : List Char) :
    (splitAt separator (trim cs)).map trim = (splitAt separator cs).map trim := by
  have hne : ∀ c, isBlank c = true → c ≠ separator := by
    rintro c hc rfl
    rw [hsolid] at hc
    cases hc
  obtain ⟨lead, tail, hcs, hlead, htail, _⟩ := trim_split cs
  have hback : (splitAt separator (trim cs ++ tail)).map trim =
      (splitAt separator (trim cs)).map trim := by
    obtain ⟨front, last, hkept, happend⟩ :=
      splitAt_append_of_notMem (fun h => hne separator (htail _ h) rfl) (trim cs)
    rw [hkept, happend, List.map_append, List.map_append, List.map_singleton,
      List.map_singleton, trim_append_blanks htail]
  have hfront : (splitAt separator (lead ++ (trim cs ++ tail))).map trim =
      (splitAt separator (trim cs ++ tail)).map trim := by
    clear hcs
    induction lead with
    | nil => rfl
    | cons c rest ih =>
        have hc := hlead c List.mem_cons_self
        rw [List.cons_append, map_trim_splitAt_cons hc (hne c hc),
          ih fun c' hc' => hlead c' (List.mem_cons_of_mem c hc')]
  rw [← hback, ← hfront, ← hcs]

theorem before_eq_self {separator : Char} {cs : List Char} (h : separator ∉ cs) :
    before separator cs = cs := by
  induction cs with
  | nil => rfl
  | cons c rest ih =>
      rw [List.mem_cons, not_or] at h
      have hrest := ih h.2
      rw [before] at hrest ⊢
      rw [List.takeWhile_cons_of_pos (by simpa using Ne.symm h.1), hrest]

theorem of_mem_before {separator c : Char} {cs : List Char}
    (h : c ∈ before separator cs) : c ∈ cs ∧ c ≠ separator :=
  ⟨(List.takeWhile_prefix _).subset h, by
    simpa using List.all_eq_true.mp List.all_takeWhile c h⟩

end TapeMips.Text
