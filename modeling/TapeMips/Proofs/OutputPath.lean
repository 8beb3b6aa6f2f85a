import TapeMips.Files.Path
import TapeMips.Proofs.Pieces

/-!
# Where programs are written

A program goes beside its source, under a name that is the source's but for the
suffix. Reading a path drops what means nothing in it, so what is left is a list
of components that are neither empty nor a dot (`Path.IsNormal`); such a path
written as text is read as the same path again (`ofText_text`). The file name is
cut at its last dot, and no suffix holds a dot behind its first character. So a
stem and the suffix of sources are found again in the name they make
(`splitSuffix_append`), and the stem can be read off the output.

The suffix of outputs is not that of sources, which is why no output is taken for
a source.
-/

namespace TapeMips.Files

open Text

/-- The components that are read from a text. -/
def componentsOf (cs : List Char) : List String :=
  ((splitAt '/' cs).map String.ofList).filter fun c => c ≠ "" ∧ c ≠ "."

theorem ofText_eq (text : String) :
    Path.ofText text = ⟨Path.rootOf text.toList, componentsOf text.toList⟩ := rfl

/-- Components that reading a path leaves. -/
def Path.IsNormal (p : Path) : Prop :=
  ∀ c ∈ p.components, c ≠ "" ∧ c ≠ "." ∧ '/' ∉ c.toList

theorem isNormal_ofText (text : String) : (Path.ofText text).IsNormal := by
  intro c hc
  obtain ⟨hmem, hkept⟩ := List.mem_filter.mp hc
  obtain ⟨piece, hpiece, rfl⟩ := List.mem_map.mp hmem
  obtain ⟨hne, hdot⟩ := decide_eq_true_eq.mp hkept
  exact ⟨hne, hdot, by rw [String.toList_ofList]; exact notMem_of_mem_splitAt hpiece⟩

/-- The components of a path as written. -/
def slashed (components : List String) : List Char :=
  ("/".intercalate components).toList

theorem slashed_eq (components : List String) :
    slashed components = ['/'].intercalate (components.map (·.toList)) :=
  String.toList_intercalate

theorem head?_slashed {p : Path} (h : p.IsNormal) :
    ∀ c ∈ (slashed p.components).head?, c ≠ '/' := by
  cases hcomponents : p.components with
  | nil => simp [slashed]
  | cons x rest =>
      obtain ⟨hne, -, hslash⟩ := h x (by rw [hcomponents]; exact List.mem_cons_self)
      obtain ⟨c, cs, hx⟩ :=
        List.exists_cons_of_ne_nil (mt String.toList_eq_nil_iff.mp hne)
      have hhead : (slashed (x :: rest)).head? = some c := by
        rw [slashed_eq, List.map_cons, hx]
        cases rest <;> rfl
      rw [hhead]
      rintro d ⟨⟩ rfl
      exact hslash (by rw [hx]; exact List.mem_cons_self)

theorem rootOf_append {root : Root} {body : List Char}
    (h : ∀ c ∈ body.head?, c ≠ '/') :
    Path.rootOf (root.text.toList ++ body) = root := by
  have hbody : body.takeWhile (· = '/') = [] := by
    cases body with
    | nil => rfl
    | cons c rest => exact List.takeWhile_cons_of_neg (by simpa using h c rfl)
  cases root with
  | relative =>
      rw [Root.text, String.toList_empty, List.nil_append, Path.rootOf, hbody]; rfl
  | slash => simp [Root.text, Path.rootOf, hbody]
  | doubleSlash => simp [Root.text, Path.rootOf, hbody]

theorem componentsOf_slash (cs : List Char) :
    componentsOf ('/' :: cs) = componentsOf cs := by
  rw [componentsOf, splitAt, if_pos rfl, List.map_cons,
    List.filter_cons_of_neg (by decide)]
  rfl

theorem componentsOf_root (root : Root) (cs : List Char) :
    componentsOf (root.text.toList ++ cs) = componentsOf cs := by
  cases root with
  | relative => rfl
  | slash => exact componentsOf_slash cs
  | doubleSlash => exact (componentsOf_slash _).trans (componentsOf_slash cs)

theorem componentsOf_slashed {p : Path} (h : p.IsNormal) :
    componentsOf (slashed p.components) = p.components := by
  by_cases hnone : p.components = []
  · rw [hnone]
    rfl
  · have hslash : ∀ piece ∈ p.components.map (·.toList), '/' ∉ piece := by
      intro piece hpiece
      obtain ⟨c, hc, rfl⟩ := List.mem_map.mp hpiece
      exact (h c hc).2.2
    have hback : (p.components.map (·.toList)).map String.ofList = p.components := by
      simp
    rw [componentsOf, slashed_eq, splitAt_intercalate hslash (by simpa using hnone),
      hback]
    refine List.filter_eq_self.mpr fun c hc => ?_
    exact decide_eq_true_eq.mpr ⟨(h c hc).1, (h c hc).2.1⟩

/-- Only the path of nothing is not written as its root and its components. -/
theorem toList_text {p : Path} (h : p ≠ ⟨.relative, []⟩) :
    p.text.toList = p.root.text.toList ++ slashed p.components := by
  rw [Path.text]
  split
  · next hroot hcomponents =>
      obtain ⟨root, components⟩ := p
      cases hroot
      cases hcomponents
      exact absurd rfl h
  · exact String.toList_append

/-- A path that is written as text is read as the same path again. -/
theorem ofText_text {p : Path} (h : p.IsNormal) : Path.ofText p.text = p := by
  by_cases hnothing : p = ⟨.relative, []⟩
  · rw [hnothing]
    rfl
  · rw [ofText_eq, toList_text hnothing, rootOf_append (head?_slashed h),
      componentsOf_root, componentsOf_slashed h]

/-- A stem is what stands before the last dot of a name. -/
theorem splitSuffix_append {stem extension : String} (hstem : stem ≠ "")
    (hextension : extension ≠ "") (hdot : '.' ∉ extension.toList) :
    Path.splitSuffix (stem ++ "." ++ extension) = (stem, "." ++ extension) := by
  have hreverse : (stem ++ "." ++ extension).toList.reverse =
      extension.toList.reverse ++ '.' :: stem.toList.reverse := by
    simp
  have hnodot : ∀ c ∈ extension.toList.reverse, decide (c ≠ '.') = true := by
    intro c hc
    rw [decide_eq_true_eq]
    rintro rfl
    exact hdot (List.mem_reverse.mp hc)
  have hextension' : (extension.toList.reverse ++ '.' :: stem.toList.reverse).takeWhile
      (· ≠ '.') = extension.toList.reverse := by
    rw [List.takeWhile_append_of_pos hnodot, List.takeWhile_cons_of_neg (by simp),
      List.append_nil]
  have hstem' : (extension.toList.reverse ++ '.' :: stem.toList.reverse).dropWhile
      (· ≠ '.') = '.' :: stem.toList.reverse := by
    rw [List.dropWhile_append_of_pos hnodot, List.dropWhile_cons_of_neg (by simp)]
  simp only [Path.splitSuffix, hreverse, hextension', hstem']
  rw [if_neg (by simp [hstem, hextension])]
  simp

theorem eq_of_splitSuffix {name stem suffix : String}
    (h : Path.splitSuffix name = (stem, suffix)) (hsuffix : suffix ≠ "") :
    stem ≠ "" ∧ name = stem ++ suffix := by
  simp only [Path.splitSuffix] at h
  split at h
  · cases h
    exact absurd rfl hsuffix
  next hfull =>
  cases h
  rw [Bool.not_eq_true, Bool.or_eq_false_iff] at hfull
  have hstem : ((name.toList.reverse.dropWhile (· ≠ '.')).drop 1).reverse ≠ [] := by
    simpa using hfull.1
  obtain ⟨c, front, hback⟩ : ∃ c front, name.toList.reverse.dropWhile (· ≠ '.') =
      c :: front := by
    refine List.exists_cons_of_ne_nil fun hnil => hstem ?_
    rw [hnil]
    rfl
  have hdot : c = '.' := by
    simpa using head?_dropWhile (· ≠ '.') name.toList.reverse c (by rw [hback]; rfl)
  subst hdot
  have hname : name.toList =
      front.reverse ++ '.' :: (name.toList.reverse.takeWhile (· ≠ '.')).reverse := by
    have hsplit :
        name.toList.reverse.takeWhile (· ≠ '.') ++ '.' :: front =
            name.toList.reverse := by
      rw [← hback, List.takeWhile_append_dropWhile]
    have hreverse := congrArg List.reverse hsplit
    rw [List.reverse_reverse] at hreverse
    simpa using hreverse.symm
  refine ⟨mt String.ofList_eq_empty_iff.mp hstem, ?_⟩
  rw [hback, List.drop_one, List.tail_cons, ← String.ofList_append, ← hname,
    String.ofList_toList]

theorem splitSuffix_source {name stem : String} :
    Path.splitSuffix name = (stem, sourceSuffix) ↔
      stem ≠ "" ∧ name = stem ++ sourceSuffix := by
  constructor
  · intro h
    exact eq_of_splitSuffix h (by decide)
  · rintro ⟨hstem, rfl⟩
    have h := splitSuffix_append hstem (by decide : "bf" ≠ "") (by decide)
    rwa [String.append_assoc] at h

theorem replaceSuffix?_concat {p : Path} {front : List String} {name : String}
    (h : p.components = front ++ [name]) (old new : String) :
    p.replaceSuffix? old new = if (Path.splitSuffix name).2 = old then
      some ⟨p.root, front ++ [(Path.splitSuffix name).1 ++ new]⟩ else none := by
  rw [Path.replaceSuffix?, h, List.getLast?_concat, List.dropLast_concat,
    Option.bind_eq_bind, Option.bind_some]
  show ((if (Path.splitSuffix name).2 = old then pure () else failure) >>=
    fun _ => _) = _
  by_cases hold : (Path.splitSuffix name).2 = old
  · rw [if_pos hold, if_pos hold]
    rfl
  · rw [if_neg hold, if_neg hold]
    rfl

/-- A path is accepted as a source exactly if its last component is a stem and the
suffix of sources. -/
theorem outputPath_eq_ok_iff {source : String} {out : Path} :
    outputPath source = .ok out ↔
      ∃ front stem, stem ≠ "" ∧
        (Path.ofText source).components = front ++ [stem ++ sourceSuffix] ∧
        out = ⟨(Path.ofText source).root, front ++ [stem ++ outputSuffix]⟩ := by
  constructor
  · intro h
    rw [outputPath] at h
    split at h
    · next p hp =>
        cases h
        rcases List.eq_nil_or_concat (Path.ofText source).components with
          hnil | ⟨front, name, hname⟩
        · rw [Path.replaceSuffix?, hnil] at hp
          cases hp
        · rw [List.concat_eq_append] at hname
          rw [replaceSuffix?_concat hname] at hp
          split at hp
          · next hsuffix =>
              cases hp
              obtain ⟨hstem, hsplit⟩ := splitSuffix_source.mp (Prod.ext rfl hsuffix)
              exact ⟨front, _, hstem, by rw [hname, ← hsplit], rfl⟩
          · cases hp
    · cases h
  · rintro ⟨front, stem, hstem, hcomponents, rfl⟩
    rw [outputPath, replaceSuffix?_concat hcomponents,
      splitSuffix_source.mpr ⟨hstem, rfl⟩, if_pos rfl]

theorem outputPath_eq_error {source : String}
    (h : ∀ front stem, (Path.ofText source).components ≠
      front ++ [stem ++ sourceSuffix]) :
    outputPath source = .error ⟨source⟩ := by
  cases hout : outputPath source with
  | ok out =>
      obtain ⟨front, stem, -, hcomponents, -⟩ := outputPath_eq_ok_iff.mp hout
      exact absurd hcomponents (h front stem)
  | error e =>
      rw [outputPath] at hout
      split at hout
      · cases hout
      · exact hout.symm

theorem not_source_asm (stem : String) :
    ¬ ".bf".toList <:+ (stem ++ ".asm").toList := by
  rintro ⟨front, h⟩
  have hlast := congrArg List.getLast? h
  simp at hlast

/-- No path ends both like an output and like a source. -/
theorem output_ne_source {front front' : List String} {stem stem' : String} :
    front ++ [stem ++ ".asm"] ≠ front' ++ [stem' ++ ".bf"] := by
  intro h
  obtain ⟨-, hname⟩ := List.append_inj' h rfl
  refine not_source_asm stem ?_
  rw [List.head_eq_of_cons_eq hname, String.toList_append]
  exact List.suffix_append _ _

theorem isNormal_output {p : Path} (h : p.IsNormal) {front : List String}
    {stem : String} (hcomponents : p.components = front ++ [stem ++ ".bf"]) :
    Path.IsNormal ⟨p.root, front ++ [stem ++ ".asm"]⟩ := by
  rw [Path.IsNormal, hcomponents] at h
  intro c hc
  rcases List.mem_append.mp hc with hc | hc
  · exact h c (List.mem_append_left _ hc)
  · obtain ⟨-, -, hslash⟩ :=
      h (stem ++ ".bf") (List.mem_append_right front List.mem_cons_self)
    rw [List.mem_singleton.mp hc]
    refine ⟨by simp, ?_, ?_⟩
    · intro hdot
      have hlength := congrArg (fun s => s.toList.length) hdot
      simp at hlength
    · simpa using hslash

theorem output_eq_iff {p q : Path} {front front' : List String} {stem stem' : String}
    (hp : p.components = front ++ [stem ++ ".bf"])
    (hq : q.components = front' ++ [stem' ++ ".bf"]) :
    Path.mk p.root (front ++ [stem ++ ".asm"]) =
      ⟨q.root, front' ++ [stem' ++ ".asm"]⟩ ↔ p = q := by
  have hnames : ∀ suffix : String,
      front ++ [stem ++ suffix] = front' ++ [stem' ++ suffix] ↔
          front = front' ∧ stem = stem' := by
    intro suffix
    rw [← List.concat_eq_append, ← List.concat_eq_append, List.concat_inj]
    simp
  obtain ⟨proot, pcomponents⟩ := p
  obtain ⟨qroot, qcomponents⟩ := q
  rw [Path.mk.injEq, Path.mk.injEq, show pcomponents = _ from hp,
    show qcomponents = _ from hq, hnames, hnames]

/-- An output stands beside its source under a name of its own: it is written
exactly for the paths that end in a stem and `.bf`, is not itself accepted as a
source, and is the output of no other path. -/
theorem outputPath_apart (source : String) :
    ((∃ out, outputPath source = .ok out) ↔
      ∃ front stem, stem ≠ "" ∧ (Path.ofText source).components =
        front ++ [stem ++ ".bf"]) ∧
    (∀ front stem, stem ≠ "" → (Path.ofText source).components =
      front ++ [stem ++ ".bf"] →
      outputPath source = .ok ⟨(Path.ofText source).root, front ++ [stem ++ ".asm"]⟩) ∧
    ∀ out, outputPath source = .ok out →
      out ≠ Path.ofText source ∧
      Path.ofText out.text = out ∧
      outputPath out.text = .error ⟨out.text⟩ ∧
      ∀ other out', outputPath other = .ok out' →
        (out = out' ↔ Path.ofText source = Path.ofText other) := by
  refine ⟨?_, ?_, ?_⟩
  · constructor
    · rintro ⟨out, h⟩
      obtain ⟨front, stem, hstem, hcomponents, -⟩ := outputPath_eq_ok_iff.mp h
      exact ⟨front, stem, hstem, hcomponents⟩
    · rintro ⟨front, stem, hstem, hcomponents⟩
      exact ⟨_, outputPath_eq_ok_iff.mpr ⟨front, stem, hstem, hcomponents, rfl⟩⟩
  · intro front stem hstem hcomponents
    exact outputPath_eq_ok_iff.mpr ⟨front, stem, hstem, hcomponents, rfl⟩
  · intro out h
    obtain ⟨front, stem, hstem, hcomponents, rfl⟩ := outputPath_eq_ok_iff.mp h
    have hread := ofText_text (isNormal_output (isNormal_ofText source) hcomponents)
    refine ⟨?_, hread, ?_, ?_⟩
    · intro heq
      exact output_ne_source ((congrArg Path.components heq).trans hcomponents)
    · refine outputPath_eq_error fun front' stem' hcomponents' => ?_
      exact output_ne_source ((congrArg Path.components hread).symm.trans hcomponents')
    · intro other out' hother
      obtain ⟨front', stem', -, hcomponents', rfl⟩ := outputPath_eq_ok_iff.mp hother
      exact output_eq_iff hcomponents hcomponents'

/-- Two slashes in front stay, the others and the dot between them go, and the
stem may be a dot. -/
theorem outputPath_apart_dots :
    outputPath "//a/.//b.bf.d/..bf/" = .ok ⟨.doubleSlash, ["a", "b.bf.d", "..asm"]⟩ ∧
      outputPath "//a/b.bf.d/..asm" = .error ⟨"//a/b.bf.d/..asm"⟩ := by
  obtain ⟨-, haccepted, hapart⟩ := outputPath_apart "//a/.//b.bf.d/..bf/"
  have hout := haccepted ["a", "b.bf.d"] "." (by decide) (by decide +kernel)
  exact ⟨hout, (hapart _ hout).2.2.1⟩

end TapeMips.Files
