import TapeMips.Proofs.Assemble
import TapeMips.Proofs.Effects

/-!
# What is in an assembled program

The text that is assembled may be anything, but what is found in it is tidy: a
name in front of a colon is a name that a label can have, and an operation comes
out of its line with the blanks, the comment and the commas gone. So a program
grows in two ways only, by a label with a proper name that is new or by a tidy
operation (`Program.Built`), and what both of them keep holds of every program
that a text assembles to.

That labels lie within their program is such a fact (`labelsFit_assemble`), and so
is that no name stands for two places.
-/

namespace TapeMips.Asm

open Text

/-- What is left of a text behind the labels at its start. -/
structure Unlabelled (cs : List Char) (names : List String) (rest : List Char) :
    Prop where
  names : ∀ name ∈ names, IsLabelName name
  no_label : label? rest = none
  trimmed : trim cs = cs → trim rest = rest
  subset : rest ⊆ cs

theorem takeLabels_unlabelled (cs : List Char) :
    Unlabelled cs (takeLabels cs).1 (takeLabels cs).2 := by
  fun_induction takeLabels cs with
  | case1 cs name rest hlabel _ names operation hrest ih =>
      rw [hrest] at ih
      obtain ⟨hname, hcs⟩ := label?_eq_some_iff.mp hlabel
      refine ⟨?_, ih.no_label, fun _ => ih.trimmed (trim_trim rest), ?_⟩
      · intro x hx
        rcases List.mem_cons.mp hx with rfl | hx
        · exact hname
        · exact ih.names x hx
      · intro c hc
        rw [hcs]
        exact List.mem_append_right name
          (List.mem_cons_of_mem ':' (mem_of_mem_trim (ih.subset hc)))
  | case2 cs hlabel =>
      exact ⟨by simp, hlabel, id, List.Subset.refl cs⟩

theorem isOperand_trim {piece : List Char}
    (h : ∀ c ∈ piece, c ≠ ',' ∧ c ≠ '#' ∧ isLineEnd c = false) :
    IsOperand (String.ofList (trim piece)) where
  trimmed := by rw [String.toList_ofList, trim_trim]
  chars := by
    intro c hc
    rw [String.toList_ofList] at hc
    exact h c (mem_of_mem_trim hc)

/-- The operands that stand behind a mnemonic and the blanks after it. -/
theorem operands_of_rest {rest : List Char} (hne : rest ≠ [])
    (hhead : ∀ c ∈ rest.head?, isBlank c = false)
    (hchars : ∀ c ∈ rest, c ≠ '#' ∧ isLineEnd c = false) :
    (∀ x ∈ (splitAt ',' rest).map fun o => String.ofList (trim o), IsOperand x) ∧
      ((splitAt ',' rest).map fun o => String.ofList (trim o)) ≠ [""] := by
  constructor
  · intro x hx
    obtain ⟨piece, hpiece, rfl⟩ := List.mem_map.mp hx
    refine isOperand_trim fun c hc => ?_
    obtain ⟨hmem, hcomma⟩ := of_mem_splitAt hpiece c hc
    exact ⟨hcomma, hchars c hmem⟩
  · intro hempty
    -- A single piece is the whole text, and its first character is not blank.
    obtain ⟨piece, hpiece, htrim⟩ := List.map_eq_singleton_iff.mp hempty
    have hrest : rest = piece := by
      rw [← intercalate_splitAt ',' rest, hpiece, List.intercalate_singleton]
    have hblank := trim_eq_nil_iff.mp (String.ofList_eq_empty_iff.mp htrim)
    obtain ⟨c, tail, rfl⟩ := List.exists_cons_of_ne_nil hne
    have hc := hblank c (by rw [← hrest]; exact List.mem_cons_self)
    rw [hhead c rfl] at hc
    cases hc

theorem isTidy_of_operation? {cs : List Char} {o : Operation}
    (h : operation? cs = some o) (htrim : trim cs = cs) (hlabel : label? cs = none)
    (hchars : ∀ c ∈ cs, c ≠ '#' ∧ isLineEnd c = false) : o.IsTidy := by
  rw [operation?] at h
  split at h
  · cases h
  next hfull =>
  cases h
  have hsplit : cs.takeWhile (!isBlank ·) ++ cs.dropWhile (!isBlank ·) = cs :=
    List.takeWhile_append_dropWhile
  have hstop : ∀ c ∈ (cs.dropWhile (!isBlank ·)).head?, isBlank c = true := by
    intro c hc
    simpa using head?_dropWhile _ cs c hc
  have hsolid : ∀ c ∈ cs.takeWhile (!isBlank ·), isBlank c = false := by
    intro c hc
    simpa using List.all_eq_true.mp List.all_takeWhile c hc
  have hnamed : cs.takeWhile (!isBlank ·) ≠ [] := by
    obtain ⟨c, rest, hcs⟩ := List.exists_cons_of_ne_nil (by simpa using hfull)
    obtain ⟨_, _, _, _, _, hhead, _⟩ := trim_split cs
    have hc : isBlank c = false := hhead c (by rw [htrim, hcs]; rfl)
    rw [hcs, List.takeWhile_cons_of_pos (by rw [hc]; rfl)]
    exact List.cons_ne_nil _ _
  have hrest : ∀ c ∈ (cs.dropWhile (!isBlank ·)).dropWhile isBlank, c ≠ '#' ∧
      isLineEnd c = false :=
    fun c hc =>
      hchars c ((List.dropWhile_suffix _).subset ((List.dropWhile_suffix _).subset hc))
  have hoperands := fun hne => operands_of_rest hne (head?_dropWhile isBlank _) hrest
  refine ⟨?_, ?_, ?_, ?_, ?_⟩
  · exact fun hnil => hnamed (String.ofList_eq_empty_iff.mp hnil)
  · intro c hc
    rw [String.toList_ofList] at hc
    exact ⟨hsolid c hc, (hchars c ((List.takeWhile_prefix _).subset hc)).1⟩
  · rw [String.toList_ofList]
    refine (label?_append_eq_none_iff fun c hc =>
      stops_label_of_blank (hstop c hc)).mp ?_
    rw [hsplit]
    exact hlabel
  · split
    · simp
    · next hne => exact (hoperands (by simpa using hne)).1
  · split
    · simp
    · next hne => exact (hoperands (by simpa using hne)).2

theorem readLine_isTidy {cs : List Char} (hcs : ∀ c ∈ cs, isLineEnd c = false) :
    (∀ name ∈ (readLine cs).1, IsLabelName name) ∧ ∀ o, (readLine cs).2 = some o →
      o.IsTidy := by
  have hbehind := takeLabels_unlabelled (trim (before '#' cs))
  refine ⟨hbehind.names, fun o ho => ?_⟩
  refine isTidy_of_operation? ho (hbehind.trimmed (trim_trim _)) hbehind.no_label ?_
  intro c hc
  obtain ⟨hmem, hsign⟩ := of_mem_before (mem_of_mem_trim (hbehind.subset hc))
  exact ⟨hsign, hcs c hmem⟩

/-- A program that comes out of assembling. -/
inductive Program.Built : Program → Prop
  | start : Built {}
  | label {p : Program} {name : String} (built : Built p) (proper : IsLabelName name)
      (fresh : p.target? name = none) :
      Built { p with labels := p.labels.push (name, p.code.size) }
  | operation {p : Program} {o : Operation} (built : Built p) (tidy : o.IsTidy)
      (line : Nat) : Built { p with code := p.code.push { o with line } }

theorem Program.Built.add {p p' : Program} (h : p.Built) {s : Statement}
    (hs : s.piece.IsTidy) (hadd : p.add s = .ok p') : p'.Built := by
  obtain ⟨number, piece⟩ := s
  cases piece with
  | label name =>
      have hdefine : p.define number name = .ok p' := hadd
      rw [Program.define] at hdefine
      split at hdefine
      · cases hdefine
      · next hfresh =>
          cases hdefine
          exact .label h hs (by simpa using hfresh)
  | op o =>
      cases hadd
      exact .operation h hs number

theorem Program.Built.addAll {sts : List Statement} {p p' : Program} (h : p.Built)
    (hsts : ∀ s ∈ sts, s.piece.IsTidy) (hadd : sts.foldlM Program.add p = .ok p') :
    p'.Built := by
  induction sts generalizing p with
  | nil =>
      cases hadd
      exact h
  | cons s rest ih =>
      rw [List.foldlM_cons] at hadd
      obtain ⟨mid, hmid, hrest⟩ := Machine.bind_eq_ok hadd
      exact ih (h.add (hsts s List.mem_cons_self) hmid)
        (fun x hx => hsts x (List.mem_cons_of_mem s hx)) hrest

theorem isTidy_of_mem_statements {ls : List (List Char)} {number : Nat}
    (hls : ∀ cs ∈ ls, ∀ c ∈ cs, isLineEnd c = false) :
    ∀ s ∈ statements number ls, s.piece.IsTidy := by
  induction ls generalizing number with
  | nil => exact fun s hs => absurd hs List.not_mem_nil
  | cons cs rest ih =>
      intro s hs
      obtain ⟨hnames, htidy⟩ := readLine_isTidy (hls cs List.mem_cons_self)
      rw [statements, lineStatements, List.mem_append, List.mem_append] at hs
      rcases hs with (hs | hs) | hs
      · obtain ⟨name, hname, rfl⟩ := List.mem_map.mp hs
        exact hnames name hname
      · obtain ⟨o, ho, rfl⟩ := List.mem_map.mp hs
        exact htidy o (Option.mem_toList.mp ho)
      · exact ih (fun l hl => hls l (List.mem_cons_of_mem cs hl)) s hs

theorem built_assemble {text : String} {p : Program} (h : assemble text = .ok p) :
    p.Built := by
  rw [assemble, addLines_eq_foldlM] at h
  exact Program.Built.start.addAll
    (isTidy_of_mem_statements fun _ hl => not_isLineEnd_of_mem_lines hl) h

/-- Labels lie within their program. -/
def Program.LabelsFit (p : Program) : Prop := ∀ l ∈ p.labels.toList, l.2 ≤ p.code.size

theorem Program.Built.labelsFit {p : Program} (h : p.Built) : p.LabelsFit := by
  induction h with
  | start =>
      intro l hl
      cases hl
  | label _ _ _ ih =>
      intro l hl
      rw [Array.toList_push, List.mem_append, List.mem_singleton] at hl
      rcases hl with hl | rfl
      · exact ih l hl
      · exact Nat.le_refl _
  | operation _ _ line ih =>
      intro l hl
      have hle := ih l hl
      rw [Array.size_push]
      omega

theorem labelsFit_assemble {text : String} {p : Program} (h : assemble text = .ok p) :
    p.LabelsFit :=
  (built_assemble h).labelsFit

theorem Program.Built.nodup {p : Program} (h : p.Built) : p.names.Nodup := by
  induction h with
  | start => exact List.nodup_nil
  | @label p name _ _ fresh ih =>
      rw [Program.names, Array.toList_push, List.map_append, List.map_singleton,
        List.nodup_append]
      refine ⟨ih, by simp, ?_⟩
      rintro x hx y hy rfl
      rw [List.mem_singleton.mp hy] at hx
      exact target?_eq_none_iff.mp fresh hx
  | operation _ _ _ ih => exact ih

end TapeMips.Asm
