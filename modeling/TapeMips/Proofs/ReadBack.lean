import TapeMips.Asm.Program
import TapeMips.Proofs.Lines
import TapeMips.Proofs.Pieces

/-!
# Lines of assembly can be read back

A line that is written as text and read again says what it said. This holds of
every tidy line (`Line.IsTidy`), where nothing is taken for a comment or for a
label, and the commas are where the operands end. An operand may be empty and may
hold blanks, as long as none stands at its ends. If the last operand is empty, its
line ends with a blank that reading takes away; the comma before it remains, and
with it the operand.

The lines of compiled programs are of a simpler kind, and it is easy to decide
whether a line is (`Line.IsPlain`): mnemonics are made of the characters that a
label may have, and operands are neither empty nor hold a blank.

Tidy lines hold no line end, so a text that is built from them falls apart into
the same lines (`lines_textOf`).
-/

namespace TapeMips.Text

theorem isBlank_of_isLineEnd {c : Char} (h : isLineEnd c = true) :
    isBlank c = true := by
  simp only [isLineEnd, isBlank, Bool.or_eq_true, Bool.and_eq_true, decide_eq_true_eq,
    beq_iff_eq] at h ⊢
  omega

end TapeMips.Text

namespace TapeMips.Asm

open Text

/-- A character that may stand in the middle of an operand and changes nothing
there. -/
def isPlainChar (c : Char) : Bool := !isBlank c && c != ',' && c != '#'

/-- A name that a label can have. -/
def IsLabelName (name : String) : Prop :=
  (∃ c ∈ name.toList.head?, isLabelStart c = true) ∧
    ∀ c ∈ name.toList, isLabelChar c = true

/-- A text without blanks, commas and number signs that is not empty. -/
def IsPlain (text : String) : Prop :=
  text.toList ≠ [] ∧ ∀ c ∈ text.toList, isPlainChar c = true

instance (name : String) : Decidable (IsLabelName name) :=
  decidable_of_iff
    (name.toList.head?.any isLabelStart = true ∧ name.toList.all isLabelChar = true)
    (by cases h : name.toList.head? <;> simp [IsLabelName, h])

instance (text : String) : Decidable (IsPlain text) :=
  decidable_of_iff (text.toList.isEmpty = false ∧ text.toList.all isPlainChar = true)
    (by simp [IsPlain])

/-- A line that can be read back. -/
def Line.IsPlain : Line → Prop
  | .label name => IsLabelName name
  | .op o => IsLabelName o.mnemonic ∧ ∀ x ∈ o.operands, Asm.IsPlain x

instance (line : Line) : Decidable line.IsPlain :=
  match line with
  | .label name => inferInstanceAs (Decidable (IsLabelName name))
  | .op o =>
    decidable_of_iff
      (IsLabelName o.mnemonic ∧
        o.operands.all (fun x => decide (Asm.IsPlain x)) = true)
      (by simp [Line.IsPlain])

theorem toNat_of_isLabelChar {c : Char} (h : isLabelChar c = true) :
    (65 ≤ c.toNat ∧ c.toNat ≤ 90) ∨ (97 ≤ c.toNat ∧ c.toNat ≤ 122) ∨
      (48 ≤ c.toNat ∧ c.toNat ≤ 57) ∨ c.toNat = 95 := by
  delta isLabelChar Char.isAlphanum Char.isAlpha Char.isUpper Char.isLower Char.isDigit
    at h
  simp only [Bool.or_eq_true, Bool.and_eq_true, decide_eq_true_eq,
    beq_iff_eq, ge_iff_le, UInt32.le_iff_toNat_le] at h
  rcases h with ((h | h) | h) | rfl
  · exact Or.inl h
  · exact Or.inr (Or.inl h)
  · exact Or.inr (Or.inr (Or.inl h))
  · exact Or.inr (Or.inr (Or.inr rfl))

theorem isPlainChar_of_isLabelChar {c : Char} (h : isLabelChar c = true) :
    isPlainChar c = true := by
  have hcode := toNat_of_isLabelChar h
  have hblank : isBlank c = false := by
    simp only [isBlank, Bool.or_eq_false_iff, Bool.and_eq_false_iff,
      decide_eq_false_iff_not, beq_eq_false_iff_ne]
    omega
  have hcomma : c ≠ ',' := by
    rintro rfl
    exact absurd hcode (by decide)
  have hsign : c ≠ '#' := by
    rintro rfl
    exact absurd hcode (by decide)
  rw [isPlainChar, hblank, bne_iff_ne.mpr hcomma, bne_iff_ne.mpr hsign]
  rfl

theorem not_blank_of_isPlainChar {c : Char} (h : isPlainChar c = true) :
    isBlank c = false := by
  rw [isPlainChar, Bool.and_eq_true, Bool.and_eq_true, Bool.not_eq_true'] at h
  exact h.1.1

theorem ne_comma_of_isPlainChar {c : Char} (h : isPlainChar c = true) : c ≠ ',' := by
  rintro rfl
  cases h

theorem ne_sign_of_isPlainChar {c : Char} (h : isPlainChar c = true) : c ≠ '#' := by
  rintro rfl
  cases h

theorem IsLabelName.isPlain {name : String} (h : IsLabelName name) : IsPlain name := by
  refine ⟨?_, fun c hc => isPlainChar_of_isLabelChar (h.2 c hc)⟩
  obtain ⟨c, hc, _⟩ := h.1
  intro hnil
  rw [hnil] at hc
  cases hc

theorem isLabelChar_of_isLabelStart {c : Char} (h : isLabelStart c = true) :
    isLabelChar c = true := by
  rw [isLabelStart, Bool.or_eq_true] at h
  rw [isLabelChar, Char.isAlphanum, Bool.or_eq_true, Bool.or_eq_true]
  rcases h with h | h
  · exact Or.inl (Or.inl h)
  · exact Or.inr h

/-- A label stands at the start of a text exactly if a name and a colon do. -/
theorem label?_eq_some_iff {cs name rest : List Char} :
    label? cs = some (name, rest) ↔
      IsLabelName (String.ofList name) ∧ cs = name ++ ':' :: rest := by
  rw [IsLabelName, String.toList_ofList]
  constructor
  · intro h
    rw [label?] at h
    split at h
    · next c rest' hhead hdrop =>
        split at h
        · next hstart =>
            cases h
            refine ⟨⟨⟨c, ?_, hstart⟩, List.all_eq_true.mp List.all_takeWhile⟩, ?_⟩
            · obtain ⟨tail, rfl⟩ := List.head?_eq_some_iff.mp hhead
              rw [List.takeWhile_cons_of_pos (isLabelChar_of_isLabelStart hstart)]
              rfl
            · rw [← hdrop, List.takeWhile_append_dropWhile]
        · cases h
    · cases h
  · rintro ⟨⟨⟨c, hc, hstart⟩, hchars⟩, rfl⟩
    have hhead : (name ++ ':' :: rest).head? = some c := by
      rw [List.head?_append, Option.mem_def.mp hc]
      rfl
    have hdrop : (name ++ ':' :: rest).dropWhile isLabelChar = ':' :: rest := by
      rw [List.dropWhile_append_of_pos hchars]
      rfl
    have htake : (name ++ ':' :: rest).takeWhile isLabelChar = name := by
      rw [List.takeWhile_append_of_pos hchars]
      exact List.append_nil _
    rw [label?, hhead, hdrop]
    simp only []
    rw [if_pos hstart, htake]

/-- Whether a text begins with a label is decided before the first character that
can be no part of one. -/
theorem label?_append_eq_none_iff {front behind : List Char}
    (hstop : ∀ c ∈ behind.head?, isLabelChar c = false ∧ c ≠ ':') :
    label? (front ++ behind) = none ↔ label? front = none := by
  rw [Option.eq_none_iff_forall_ne_some, Option.eq_none_iff_forall_ne_some]
  constructor
  · rintro h ⟨name, rest⟩ hlabel
    obtain ⟨hname, rfl⟩ := label?_eq_some_iff.mp hlabel
    refine h (name, rest ++ behind) (label?_eq_some_iff.mpr ⟨hname, ?_⟩)
    rw [List.append_assoc, List.cons_append]
  · rintro h ⟨name, rest⟩ hlabel
    obtain ⟨hname, hsplit⟩ := label?_eq_some_iff.mp hlabel
    rcases List.append_eq_append_iff.mp hsplit with
      ⟨between, hname', hbehind⟩ | ⟨between, hfront, hcolon⟩
    · -- The name would reach beyond `front`, and so would the colon behind it.
      cases between with
      | nil => exact (hstop ':' (by rw [hbehind]; rfl)).2 rfl
      | cons c between =>
          have hchar := hname.2 c (by rw [String.toList_ofList, hname']; simp)
          rw [(hstop c (by rw [hbehind]; rfl)).1] at hchar
          cases hchar
    · cases between with
      | nil =>
          exact (hstop ':' (by rw [← List.nil_append behind, ← hcolon]; rfl)).2 rfl
      | cons c between =>
          obtain ⟨rfl, rfl⟩ := List.cons.inj hcolon
          exact h (name, between) (label?_eq_some_iff.mpr ⟨hname, hfront⟩)

theorem label?_name {name : String} (h : IsLabelName name) :
    label? (name.toList ++ [':']) = some (name.toList, []) :=
  label?_eq_some_iff.mpr ⟨by rwa [String.ofList_toList], rfl⟩


/-- What can stand between two commas and is read as it stands. -/
structure IsOperand (text : String) : Prop where
  trimmed : trim text.toList = text.toList
  chars : ∀ c ∈ text.toList, c ≠ ',' ∧ c ≠ '#' ∧ isLineEnd c = false

/-- An operation that can be written as a line and read back. -/
structure Operation.IsTidy (o : Operation) : Prop where
  named : o.mnemonic ≠ ""
  solid : ∀ c ∈ o.mnemonic.toList, isBlank c = false ∧ c ≠ '#'
  /-- The mnemonic does not begin with a label, as `x:y` does. -/
  unlabelled : label? o.mnemonic.toList = none
  operands : ∀ x ∈ o.operands, IsOperand x
  /-- A single empty operand cannot be told from none. -/
  not_empty : o.operands ≠ [""]

/-- A line that can be read back. -/
def Line.IsTidy : Line → Prop
  | .label name => IsLabelName name
  | .op o => o.IsTidy

theorem IsPlain.isOperand {text : String} (h : IsPlain text) : IsOperand text where
  trimmed := trim_of_solid fun c hc => not_blank_of_isPlainChar (h.2 c hc)
  chars := by
    intro c hc
    have hplain := h.2 c hc
    refine ⟨ne_comma_of_isPlainChar hplain, ne_sign_of_isPlainChar hplain, ?_⟩
    cases hend : isLineEnd c with
    | false => rfl
    | true =>
        rw [← isBlank_of_isLineEnd hend]
        exact not_blank_of_isPlainChar hplain

theorem Line.IsPlain.isTidy {line : Line} (h : line.IsPlain) : line.IsTidy := by
  cases line with
  | label name => exact h
  | op o =>
      obtain ⟨hname, hoperands⟩ := h
      have hplain := hname.isPlain
      refine ⟨?_, ?_, ?_, fun x hx => (hoperands x hx).isOperand, ?_⟩
      · intro hnil
        exact hplain.1 (by rw [hnil]; rfl)
      · intro c hc
        exact ⟨not_blank_of_isPlainChar (hplain.2 c hc),
          ne_sign_of_isPlainChar (hplain.2 c hc)⟩
      · rw [Option.eq_none_iff_forall_ne_some]
        rintro ⟨name, rest⟩ hlabel
        have hcolon : ':' ∈ o.mnemonic.toList := by
          rw [(label?_eq_some_iff.mp hlabel).2]
          simp
        exact absurd (hname.2 ':' hcolon) (by decide)
      · intro hempty
        exact (hoperands "" (by rw [hempty]; exact List.mem_cons_self)).1 rfl

theorem readLine_label {name : String} (h : IsLabelName name) :
    readLine (Line.label name).text.toList = ([name], none) := by
  have htext : (Line.label name).text.toList = name.toList ++ [':'] :=
    String.toList_append
  have hblank : ∀ c ∈ name.toList ++ [':'], isBlank c = false := by
    intro c hc
    rcases List.mem_append.mp hc with hc | hc
    · exact not_blank_of_isPlainChar (h.isPlain.2 c hc)
    · rw [List.mem_singleton.mp hc]
      rfl
  have hsign : '#' ∉ name.toList ++ [':'] := by
    intro hc
    rcases List.mem_append.mp hc with hc | hc
    · exact ne_sign_of_isPlainChar (h.isPlain.2 _ hc) rfl
    · cases List.mem_singleton.mp hc
  have hlabels : takeLabels (name.toList ++ [':']) = ([name], []) := by
    rw [takeLabels_of_some (label?_name h), trim_of_solid (by simp),
      takeLabels_of_none rfl, String.ofList_toList]
  rw [htext, readLine, before_eq_self hsign, trim_of_solid hblank, hlabels]
  rfl

/-! ## Reading an operation

Behind the mnemonic and a blank stand the operands with commas and blanks
between them. -/

/-- The operands as written. -/
def joined (operands : List String) : List Char := (", ".intercalate operands).toList

theorem joined_singleton (x : String) : joined [x] = x.toList := by
  rw [joined, String.intercalate_singleton]

theorem joined_cons_cons (x y : String) (rest : List String) :
    joined (x :: y :: rest) = x.toList ++ ',' :: ' ' :: joined (y :: rest) := by
  rw [joined, String.intercalate_cons_cons, String.toList_append, String.toList_append,
    List.append_assoc]
  rfl

theorem mem_joined {x : String} {rest : List String} {c : Char}
    (h : c ∈ joined (x :: rest)) :
    c = ',' ∨ c = ' ' ∨ ∃ y ∈ x :: rest, c ∈ y.toList := by
  induction rest generalizing x with
  | nil =>
      rw [joined_singleton] at h
      exact Or.inr (Or.inr ⟨x, List.mem_cons_self, h⟩)
  | cons y rest ih =>
      rw [joined_cons_cons, List.mem_append, List.mem_cons, List.mem_cons] at h
      rcases h with h | h | h | h
      · exact Or.inr (Or.inr ⟨x, List.mem_cons_self, h⟩)
      · exact Or.inl h
      · exact Or.inr (Or.inl h)
      · rcases ih h with h | h | ⟨z, hz, h⟩
        · exact Or.inl h
        · exact Or.inr (Or.inl h)
        · exact Or.inr (Or.inr ⟨z, List.mem_cons_of_mem x hz, h⟩)

theorem splitAt_joined {x : String} {rest : List String}
    (h : ∀ y ∈ x :: rest, IsOperand y) :
    splitAt ',' (joined (x :: rest)) = x.toList :: rest.map fun y =>
      ' ' :: y.toList := by
  have hcomma : ∀ y, IsOperand y → ',' ∉ y.toList :=
    fun y hy hc => (hy.chars _ hc).1 rfl
  induction rest generalizing x with
  | nil =>
      rw [joined_singleton, splitAt_of_notMem (hcomma x (h x List.mem_cons_self))]; rfl
  | cons y rest ih =>
      have hrest := ih fun z hz => h z (List.mem_cons_of_mem x hz)
      rw [joined_cons_cons, splitAt_append (hcomma x (h x List.mem_cons_self)),
        splitAt, if_neg (by decide), hrest]
      rfl

theorem map_trim_splitAt_joined {x : String} {rest : List String}
    (h : ∀ y ∈ x :: rest, IsOperand y) :
    (splitAt ',' (joined (x :: rest))).map trim = (x :: rest).map (·.toList) := by
  rw [splitAt_joined h, List.map_cons, (h x List.mem_cons_self).trimmed, List.map_map,
    List.map_cons]
  congr 1
  refine List.map_congr_left fun y hy => ?_
  exact (trim_cons_blank rfl _).trans (h y (List.mem_cons_of_mem x hy)).trimmed

/-- The operands leave something behind the mnemonic that is not blank: a
character of the first of them, or the comma behind it. -/
theorem trim_joined_ne_nil {x : String} {rest : List String} (hx : IsOperand x)
    (h : x :: rest ≠ [""]) : trim (joined (x :: rest)) ≠ [] := by
  intro hnil
  have hblank := trim_eq_nil_iff.mp hnil
  cases rest with
  | nil =>
      rw [joined_singleton, hx.trimmed] at hnil
      exact h (by rw [String.toList_eq_nil_iff.mp hnil])
  | cons y rest =>
      have hcomma := hblank ',' (by rw [joined_cons_cons]; simp)
      cases hcomma

theorem operation?_append {mnemonic behind : List Char} (hne : mnemonic ≠ [])
    (hsolid : ∀ c ∈ mnemonic, isBlank c = false)
    (hstop : ∀ c ∈ behind.head?, isBlank c = true) :
    operation? (mnemonic ++ behind) =
      some ⟨String.ofList mnemonic, if (behind.dropWhile isBlank).isEmpty then []
        else (splitAt ',' (behind.dropWhile isBlank)).map fun o =>
          String.ofList (trim o)⟩ := by
  have hsolid' : ∀ c ∈ mnemonic, (!isBlank c) = true := fun c hc => by
    rw [hsolid c hc]
    rfl
  have hbehind : behind.takeWhile (!isBlank ·) = [] ∧
      behind.dropWhile (!isBlank ·) = behind := by
    cases behind with
    | nil => exact ⟨rfl, rfl⟩
    | cons c cs =>
        have hc : ¬ (!isBlank c) = true := by rw [hstop c rfl]; decide
        exact ⟨List.takeWhile_cons_of_neg hc, List.dropWhile_cons_of_neg hc⟩
  have hfull : (mnemonic ++ behind).isEmpty = false := by
    rw [List.isEmpty_eq_false_iff]
    exact List.append_ne_nil_of_left_ne_nil hne behind
  rw [operation?, if_neg (by rw [hfull]; decide), List.takeWhile_append_of_pos hsolid',
    List.dropWhile_append_of_pos hsolid', hbehind.1, hbehind.2, List.append_nil]

theorem stops_label_of_blank {c : Char} (h : isBlank c = true) :
    isLabelChar c = false ∧ c ≠ ':' := by
  constructor
  · cases hchar : isLabelChar c with
    | false => rfl
    | true => rw [← h, not_blank_of_isPlainChar (isPlainChar_of_isLabelChar hchar)]
  · rintro rfl
    cases h

/-- A line that holds an operation and no label. -/
theorem readLine_of_trim {cs mnemonic behind : List Char} (hsign : '#' ∉ cs)
    (htrim : trim cs = mnemonic ++ behind) (hne : mnemonic ≠ [])
    (hsolid : ∀ c ∈ mnemonic, isBlank c = false) (hlabel : label? mnemonic = none)
    (hstop : ∀ c ∈ behind.head?, isBlank c = true) :
    readLine cs =
      ([], some ⟨String.ofList mnemonic, if (behind.dropWhile isBlank).isEmpty then []
        else (splitAt ',' (behind.dropWhile isBlank)).map fun o =>
          String.ofList (trim o)⟩) := by
  have hnone : label? (mnemonic ++ behind) = none :=
    (label?_append_eq_none_iff fun c hc =>
      stops_label_of_blank (hstop c hc)).mpr hlabel
  rw [readLine, before_eq_self hsign, htrim, takeLabels_of_none hnone]
  simp only [operation?_append hne hsolid hstop]

theorem text_op_cons (mnemonic x : String) (rest : List String) :
    (Line.op ⟨mnemonic, x :: rest⟩).text.toList =
      mnemonic.toList ++ ' ' :: joined (x :: rest) := by
  show (mnemonic ++ " " ++ ", ".intercalate (x :: rest)).toList = _
  rw [String.toList_append, String.toList_append, List.append_assoc]
  rfl

theorem of_mem_text_op {o : Operation} (h : o.IsTidy) :
    ∀ c ∈ (Line.op o).text.toList, c ≠ '#' ∧ isLineEnd c = false := by
  have hmnemonic : ∀ c ∈ o.mnemonic.toList, c ≠ '#' ∧ isLineEnd c = false := by
    intro c hc
    refine ⟨(h.solid c hc).2, ?_⟩
    cases hend : isLineEnd c with
    | false => rfl
    | true => rw [← isBlank_of_isLineEnd hend, (h.solid c hc).1]
  obtain ⟨mnemonic, operands⟩ := o
  intro c hc
  cases operands with
  | nil => exact hmnemonic c hc
  | cons x rest =>
      rw [text_op_cons, List.mem_append, List.mem_cons] at hc
      rcases hc with hc | rfl | hc
      · exact hmnemonic c hc
      · exact ⟨by decide, rfl⟩
      · rcases mem_joined hc with rfl | rfl | ⟨y, hy, hc⟩
        · exact ⟨by decide, rfl⟩
        · exact ⟨by decide, rfl⟩
        · exact ((h.operands y hy).chars c hc).2

theorem readLine_op {o : Operation} (h : o.IsTidy) :
    readLine (Line.op o).text.toList = ([], some o) := by
  have hsign : '#' ∉ (Line.op o).text.toList := fun hc => (of_mem_text_op h _ hc).1 rfl
  have hne : o.mnemonic.toList ≠ [] := mt String.toList_eq_nil_iff.mp h.named
  have hsolid : ∀ c ∈ o.mnemonic.toList, isBlank c = false :=
    fun c hc => (h.solid c hc).1
  obtain ⟨mnemonic, operands⟩ := o
  cases operands with
  | nil =>
      have htrim : trim (Line.op ⟨mnemonic, []⟩).text.toList =
          mnemonic.toList ++ [] := by
        rw [List.append_nil]
        exact trim_of_solid hsolid
      rw [readLine_of_trim hsign htrim hne hsolid h.unlabelled (by simp),
        String.ofList_toList]
      rfl
  | cons x rest =>
      have hkept := trim_joined_ne_nil (h.operands x List.mem_cons_self) h.not_empty
      obtain ⟨lead, hlead, htrim⟩ := trim_word_append ' ' hne hsolid hkept
      have hdrop : (' ' :: lead ++ trim (joined (x :: rest))).dropWhile isBlank =
          trim (joined (x :: rest)) := by
        obtain ⟨_, _, _, _, _, hhead, _⟩ := trim_split (joined (x :: rest))
        rw [List.dropWhile_append_of_pos (by simpa using ⟨rfl, hlead⟩),
          dropWhile_of_head hhead]
      have hoperands : (splitAt ',' (trim (joined (x :: rest)))).map
          (fun o => String.ofList (trim o)) = x :: rest := by
        calc
          _ = ((splitAt ',' (trim (joined (x :: rest)))).map trim).map
                String.ofList := by
              rw [List.map_map]
              rfl
          _ = ((x :: rest).map (·.toList)).map String.ofList := by
              rw [map_trim_splitAt_trim rfl, map_trim_splitAt_joined h.operands]
          _ = x :: rest := by simp
      rw [← text_op_cons] at htrim
      rw [readLine_of_trim hsign htrim hne hsolid h.unlabelled (by rintro c ⟨⟩; rfl),
        hdrop, if_neg (by simpa using hkept), String.ofList_toList, hoperands]

/-- What a line says when it is read. -/
def Line.meaning : Line → List String × Option Operation
  | .label name => ([name], none)
  | .op o => ([], some o)

theorem readLine_text {line : Line} (h : line.IsTidy) :
    readLine line.text.toList = line.meaning := by
  cases line with
  | label name => exact readLine_label h
  | op o => exact readLine_op h

theorem not_isLineEnd_of_mem_text {line : Line} (h : line.IsTidy) :
    ∀ c ∈ line.text.toList, isLineEnd c = false := by
  intro c hc
  cases line with
  | label name =>
      rw [show (Line.label name).text = name ++ ":" from rfl,
        String.toList_append] at hc
      rcases List.mem_append.mp hc with hc | hc
      · exact ((IsLabelName.isPlain h).isOperand.chars c hc).2.2
      · rw [List.mem_singleton.mp hc]
        rfl
  | op o => exact (of_mem_text_op h c hc).2

/-- The text of tidy lines falls apart into the same lines. -/
theorem lines_textOf {ls : List Line} (h : ∀ line ∈ ls, line.IsTidy) :
    lines (Line.textOf ls).toList = ls.map fun line => line.text.toList := by
  rw [lines]
  induction ls with
  | nil => rfl
  | cons line rest ih =>
      have hline := not_isLineEnd_of_mem_text (h line List.mem_cons_self)
      rw [Line.textOf_cons, String.toList_append, String.toList_append,
        List.append_assoc, show "\n".toList ++ (Line.textOf rest).toList =
        '\n' :: (Line.textOf rest).toList from rfl, linesFrom_append hline,
          ih fun l hl => h l (List.mem_cons_of_mem line hl)]
      rfl

end TapeMips.Asm
