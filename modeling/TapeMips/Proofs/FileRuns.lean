import TapeMips.Proofs.LineEnds
import TapeMips.Proofs.OutputPath
import TapeMips.Proofs.Scripts

/-!
# What runs of the command do to the files

A run is refused before it opens anything (`Refused` lists the reasons), or it never
gets past its source (`Endless`), or it has a program to write (`Prepared`): every run
is in one of the three cases, and what it does follows from the case. A refused run
hands the disk back as it was, and so does one that never ends. A run with a program
changes at most the place to which the path of the output leads. What stands there
afterwards is the whole program if all went well, and else nothing, or what stood there
before, if that could be neither opened nor taken away.

Runs that follow each other feed on each other's results, so what is said of one run is
said of any disk, whatever will go wrong on it. The name of an output does not end like
that of a source; so no run changes a source, and neither does any number of them.
-/

namespace TapeMips.CommandLine

open Files Script Source Text

/-- Why a run does not get as far as opening the output, and how it ends. -/
inductive Refused (arguments : List String) (t : Tree) : Ending → Prop where
  | usage {e : UsageError} (line : compileGrammar.read "" arguments = .error e) :
      Refused arguments t (.usage e)
  | help (line : compileGrammar.read "" arguments = .ok .help) :
      Refused arguments t .help
  | suffix {argument : String} {e : WrongSuffix}
      (line : compileGrammar.read "" arguments = .ok (.run argument))
      (output : outputPath argument = .error e) : Refused arguments t (.wrongSuffix e)
  | missing {target : Target} (line : Target.ofArguments arguments = .ok target)
      (source : t.find target.source = .ok none) :
      Refused arguments t
        (.sourceNotFound ("Source file not found: " ++ target.argument))
  | unreadable {target : Target} {e : SystemError}
      (line : Target.ofArguments arguments = .ok target)
      (source : t.find target.source = .error e) :
      Refused arguments t (.unreadable target.argument e.message)
  | directory {target : Target} (line : Target.ofArguments arguments = .ok target)
      (source : t.find target.source = .ok (some .directory)) :
      Refused arguments t
        (.unreadable target.argument
          (SystemError.isDirectory target.source.text).message)
  | undecodable {target : Target} {content : List UInt8} {e : Utf8.DecodeError}
      (line : Target.ofArguments arguments = .ok target)
      (source : t.find target.source = .ok (some (.file content)))
      (text : Utf8.decode content = .error e) :
      Refused arguments t (.unreadable target.argument e.message)
  | malformed {target : Target} {content : List UInt8} {cs : List Char} {e : Malformed}
      (line : Target.ofArguments arguments = .ok target)
      (source : t.find target.source = .ok (some (.file content)))
      (text : Utf8.decode content = .ok cs)
      (program : nestingDepth (String.ofList (unifyNewlines cs)) = .error e) :
      Refused arguments t (.malformed e)

/-- The source is the device, which is read without an end. -/
def Endless (arguments : List String) (t : Tree) : Prop :=
  ∃ target, Target.ofArguments arguments = .ok target ∧
    t.find target.source = .ok (some .fullDevice)

/-- A source that has been read, and its program. -/
structure Prepared (arguments : List String) (t : Tree) (target : Target)
    (source : String) (c : Compilation) : Prop where
  line : Target.ofArguments arguments = .ok target
  text : ∃ content cs, t.find target.source = .ok (some (.file content)) ∧
    Utf8.decode content = .ok cs ∧ source = String.ofList (unifyNewlines cs)
  balanced : isBalanced source = true
  program : compile source = .ok c

theorem refused_of_line {arguments : List String} {ending : Ending}
    (h : Target.ofArguments arguments = .error ending) (t : Tree) :
    Refused arguments t ending := by
  rw [Target.ofArguments] at h
  split at h
  · next line => cases h; exact .usage line
  · next line => cases h; exact .help line
  · next argument line =>
      split at h
      · next output => cases h; exact .suffix line output
      · cases h

/-- Every run is refused, or never gets past its source, or has a program to write. -/
theorem refused_or_endless_or_prepared (arguments : List String) (t : Tree) :
    (∃ ending, Refused arguments t ending) ∨ Endless arguments t ∨
      ∃ target source c, Prepared arguments t target source c := by
  cases line : Target.ofArguments arguments with
  | error ending => exact Or.inl ⟨ending, refused_of_line line t⟩
  | ok target =>
      cases source : t.find target.source with
      | error e => exact Or.inl ⟨_, .unreadable line source⟩
      | ok found =>
          cases found with
          | none => exact Or.inl ⟨_, .missing line source⟩
          | some node =>
              cases node with
              | directory => exact Or.inl ⟨_, .directory line source⟩
              | fullDevice => exact Or.inr (Or.inl ⟨target, line, source⟩)
              | file content =>
                  cases text : Utf8.decode content with
                  | error e => exact Or.inl ⟨_, .undecodable line source text⟩
                  | ok cs =>
                      cases program : compile (String.ofList (unifyNewlines cs)) with
                      | error e =>
                          have hdepth := (compile_eq_error_iff _ e).mp program
                          exact Or.inl ⟨_, .malformed line source text hdepth⟩
                      | ok c =>
                          have hbalanced :=
                            (isBalanced_iff_depth _).mpr
                              (Codegen.depth_of_compile program)
                          exact Or.inr (Or.inr ⟨target, _, c, line,
                            ⟨content, cs, source, text, rfl⟩, hbalanced, program⟩)

section

variable {arguments : List String} {target : Target} {d : Disk}

theorem yields_exists {found : Option Files.Node}
    (h : d.tree.find target.source = .ok found) :
    (demand Unread.system (.exists target.source)).run.Yields d (.ok found.isSome) d :=
  yields_demand (r := .ok found.isSome) (by
    simp only [Disk.answer, Tree.exists?, h, Except.map])

theorem readSource_of_error {e : SystemError}
    (h : d.tree.find target.source = .error e) :
    (readSource target).run.Yields d (.error (.system e)) d := by
  have hexists : (demand Unread.system (.exists target.source)).run.Yields d
      (.error (.system e)) d :=
    yields_demand (r := .error e)
      (by simp only [Disk.answer, Tree.exists?, h, Except.map])
  exact Yields.skip hexists _

theorem readSource_of_missing (h : d.tree.find target.source = .ok none) :
    (readSource target).run.Yields d (.error (.missing target.argument)) d :=
  Yields.then (yields_exists h) (yields_pure _ d)

theorem readSource_of_directory
    (h : d.tree.find target.source = .ok (some .directory)) :
    (readSource target).run.Yields d
      (.error (.system (.isDirectory target.source.text))) d := by
  have hread : (demand Unread.system (.read target.source)).run.Yields d
      (.error (.system (.isDirectory target.source.text))) d :=
    yields_demand (r := .error _) (by simp only [Disk.answer, Disk.read, h])
  exact Yields.then (yields_exists h) (Yields.skip hread _)

theorem yields_read {content : List UInt8}
    (h : d.tree.find target.source = .ok (some (.file content))) :
    (demand Unread.system (.read target.source)).run.Yields d (.ok content) d :=
  yields_demand (r := .ok content) (by simp only [Disk.answer, Disk.read, h])

theorem readSource_of_undecodable {content : List UInt8} {e : Utf8.DecodeError}
    (h : d.tree.find target.source = .ok (some (.file content)))
    (text : Utf8.decode content = .error e) :
    (readSource target).run.Yields d (.error (.undecodable e)) d := by
  refine Yields.then (yields_exists h) (Yields.then (yields_read h) ?_)
  simp only [text]
  exact yields_pure _ d

theorem readSource_of_text {content : List UInt8} {cs : List Char}
    (h : d.tree.find target.source = .ok (some (.file content)))
    (text : Utf8.decode content = .ok cs) :
    (readSource target).run.Yields d (.ok (String.ofList (unifyNewlines cs))) d := by
  refine Yields.then (yields_exists h) (Yields.then (yields_read h) ?_)
  simp only [text]
  exact yields_pure _ d

theorem readSource_of_device (h : d.tree.find target.source = .ok (some .fullDevice)) :
    (readSource target).run.Hangs d := by
  have hread : (demand Unread.system (.read target.source)).run.Hangs d :=
    hangs_demand (by simp only [Disk.answer, Disk.read, h])
  exact Yields.then_hangs (yields_exists h) (Hangs.then hread _)

end

/-! ## One run

What the command says in the end is what became of the two attempts that it makes. -/

section

variable {arguments : List String} {target : Target} {d d' : Disk}

theorem compileFile_of_line {ending : Ending}
    (h : Target.ofArguments arguments = .error ending) (d : Disk) :
    (compileFile arguments).Yields d ending d := by
  rw [compileFile]
  simp only [h]
  exact yields_pure _ d

theorem compileFile_of_unread {e : Unread}
    (h : Target.ofArguments arguments = .ok target)
    (hread : (readSource target).run.Yields d (.error e) d) :
    (compileFile arguments).Yields d (e.ending target.argument) d := by
  rw [compileFile]
  simp only [h]
  exact hread.bind (yields_pure _ d)

theorem compileFile_of_uncompiled {source : String} {e : Uncompiled}
    (h : Target.ofArguments arguments = .ok target)
    (hread : (readSource target).run.Yields d (.ok source) d)
    (hrun : (compileTo target.output source).run.Yields d (.error e) d') :
    (compileFile arguments).Yields d (e.ending target.output) d' := by
  rw [compileFile]
  simp only [h]
  exact hread.bind (hrun.bind (yields_pure _ d'))

theorem compileFile_of_compiled {source : String}
    (h : Target.ofArguments arguments = .ok target)
    (hread : (readSource target).run.Yields d (.ok source) d)
    (hrun : (compileTo target.output source).run.Yields d (.ok ()) d') :
    (compileFile arguments).Yields d .compiled d' := by
  rw [compileFile]
  simp only [h]
  exact hread.bind (hrun.bind (yields_pure _ d'))

theorem Endless.compileFile (h : Endless arguments d.tree) :
    (compileFile arguments).Hangs d := by
  obtain ⟨target, line, source⟩ := h
  rw [CommandLine.compileFile]
  simp only [line]
  exact (readSource_of_device source).bind _

theorem Refused.compileFile {ending : Ending} (h : Refused arguments d.tree ending) :
    (compileFile arguments).Yields d ending d := by
  cases h with
  | usage line => exact compileFile_of_line (by simp only [Target.ofArguments, line]) d
  | help line => exact compileFile_of_line (by simp only [Target.ofArguments, line]) d
  | suffix line output =>
      exact compileFile_of_line (by simp only [Target.ofArguments, line, output]) d
  | missing line source =>
      exact compileFile_of_unread line (readSource_of_missing source)
  | unreadable line source =>
      have hrun := compileFile_of_unread line (readSource_of_error source)
      obtain ⟨path, rfl⟩ := Tree.find_error source
      exact hrun
  | directory line source =>
      exact compileFile_of_unread line (readSource_of_directory source)
  | undecodable line source text =>
      exact compileFile_of_unread line (readSource_of_undecodable source text)
  | malformed line source text program =>
      have hmalformed := (malformed?_eq_some_iff _ _).mpr program
      refine compileFile_of_uncompiled line (readSource_of_text source text)
        (e := .malformed _) ?_
      refine Yields.skip ?_ _
      rw [validate, hmalformed]
      exact yields_pure _ d

/-- A run with a program writes it, or the system refuses. -/
theorem Prepared.compileFile {source : String} {c : Compilation}
    (h : Prepared arguments d.tree target source c) :
    ∃ r d', CompiledTo d target.output source c r d' ∧
      (compileFile arguments).Yields d
        (match r with
        | .ok _ => .compiled
        | .error e => .unwritable target.output.text e.message) d' := by
  obtain ⟨content, cs, hsource, htext, rfl⟩ := h.text
  have hread := readSource_of_text hsource htext
  obtain ⟨r, d', hrun, hcompiled⟩ := compileTo_yields h.program d target.output
  refine ⟨r, d', hcompiled, ?_⟩
  cases r with
  | ok _ => exact compileFile_of_compiled h.line hread hrun
  | error e => exact compileFile_of_uncompiled h.line hread hrun

end

/-- What a run does on a disk `d` when it ends like this, or not at all, and
leaves the disk `d'`. -/
structure Framed (arguments : List String) (d : Disk) (ending : Option Ending)
    (d' : Disk) : Prop where
  /-- There is no fourth kind of run. -/
  exhaustive : (∃ e, Refused arguments d.tree e) ∨ Endless arguments d.tree ∨
    ∃ target source c, Prepared arguments d.tree target source c
  refused : ∀ e, Refused arguments d.tree e → ending = some e ∧ d' = d
  success : ∀ e, ending = some e → e.exitCode = 0 → e ≠ .help →
    ∃ target source c, Prepared arguments d.tree target source c ∧
      d'.tree.find target.output = .ok (some (.file (Utf8.encode c.assembly))) ∧
      d.tree.SameBut d'.tree target.output
  /-- A program is written exactly if its output can be opened, and no write goes
  wrong, nor the closing. -/
  compiled_iff : ∀ target source c, Prepared arguments d.tree target source c →
    (ending = some .compiled ↔
      d.tree.Writable target.output ∧ d.GoesWell (transfers source))
  /-- Whatever goes wrong, no part of a program is left. -/
  failure : ∀ target source c, Prepared arguments d.tree target source c →
    ending ≠ some .compiled →
    (∃ reason, ending = some (.unwritable target.output.text reason)) ∧
      ending.map Ending.exitCode = some 1 ∧
      ((d'.tree.find target.output = .ok none ∧ d.tree.SameBut d'.tree target.output) ∨
        (d' = d ∧ (d.tree.find target.output = .ok (some .directory) ∨
          d.tree.walk target.output = .nameTooLong)))
  endless_iff : ending = none ↔ Endless arguments d.tree
  endless : ending = none → d' = d

theorem Refused.exitCode {arguments : List String} {t : Tree} {ending : Ending}
    (h : Refused arguments t ending) (hhelp : ending ≠ .help) :
    ending.exitCode ≠ 0 := by
  cases h with
  | help line => exact absurd rfl hhelp
  | _ => exact Nat.succ_ne_zero _

theorem compileFile_framed (arguments : List String) (d : Disk) :
    Framed arguments d ((compileFile arguments).runOn d).1
      ((compileFile arguments).runOn d).2 where
  exhaustive := refused_or_endless_or_prepared arguments d.tree
  refused := by
    intro e h
    rw [h.compileFile]
    exact ⟨rfl, rfl⟩
  success := by
    intro e he hcode hhelp
    rcases refused_or_endless_or_prepared arguments d.tree with
      ⟨ending, h⟩ | h | ⟨target, source, c, h⟩
    · rw [h.compileFile, Option.some.injEq] at he
      subst he
      exact absurd hcode (h.exitCode hhelp)
    · rw [h.compileFile] at he
      cases he
    · obtain ⟨r, d', hcompiled, hrun⟩ := h.compileFile
      rw [hrun] at he ⊢
      cases r with
      | ok _ => exact ⟨target, source, c, h, hcompiled.program rfl, hcompiled.sameBut⟩
      | error s =>
          rw [← Option.some.inj he] at hcode
          cases hcode
  compiled_iff := by
    intro target source c h
    obtain ⟨r, d', hcompiled, hrun⟩ := h.compileFile
    rw [hrun, ← hcompiled.ok_iff]
    cases r <;> simp
  failure := by
    intro target source c h hending
    obtain ⟨r, d', hcompiled, hrun⟩ := h.compileFile
    rw [hrun] at hending ⊢
    cases r with
    | ok _ => exact absurd rfl hending
    | error s =>
        refine ⟨⟨_, rfl⟩, rfl, ?_⟩
        exact (hcompiled.removed s rfl).imp (fun hnone =>
          ⟨hnone, hcompiled.sameBut⟩) id
  endless_iff := by
    constructor
    · intro hnone
      rcases refused_or_endless_or_prepared arguments d.tree with
        ⟨ending, h⟩ | h | ⟨target, source, c, h⟩
      · rw [h.compileFile] at hnone
        cases hnone
      · exact h
      · obtain ⟨r, d', -, hrun⟩ := h.compileFile
        rw [hrun] at hnone
        cases hnone
    · intro h
      rw [h.compileFile]
  endless := by
    intro hnone
    rcases refused_or_endless_or_prepared arguments d.tree with
      ⟨ending, h⟩ | h | ⟨target, source, c, h⟩
    · rw [h.compileFile]
    · rw [h.compileFile]
    · obtain ⟨r, d', -, hrun⟩ := h.compileFile
      rw [hrun] at hnone
      cases hnone

theorem output_name {arguments : List String} {target : Target}
    (h : Target.ofArguments arguments = .ok target) :
    ∃ front stem, target.output.components = front ++ [stem ++ ".asm"] := by
  rw [Target.ofArguments] at h
  split at h
  · cases h
  · cases h
  · split at h
    · cases h
    · next output houtput =>
        cases h
        obtain ⟨front, stem, -, -, rfl⟩ := outputPath_eq_ok_iff.mp houtput
        exact ⟨front, stem, rfl⟩

theorem asm_ne_parent (stem : String) : stem ++ ".asm" ≠ ".." := by
  intro h
  have hlen := congrArg (fun s => s.toList.length) h
  simp at hlen

/-- The path of an output does not lead to a source. -/
theorem walk_output_ne {arguments : List String} {target : Target}
    (h : Target.ofArguments arguments = .ok target) (t : Tree) (place : List String)
    {name : String} (hname : ".bf".toList <:+ name.toList) :
    t.walk target.output ≠ .found (.within (place ++ [name])) := by
  obtain ⟨front, stem, houtput⟩ := output_name h
  intro hwalk
  rw [Tree.walk, houtput] at hwalk
  split at hwalk
  · cases hwalk
  · split at hwalk
    · cases hwalk
    · obtain ⟨above, hplace⟩ := Tree.walkFrom_name (asm_ne_parent stem) hwalk
      obtain ⟨-, hlast⟩ := List.append_inj' (Tree.Place.within.inj hplace) rfl
      rw [List.cons.inj hlast |>.1] at hname
      exact not_source_asm stem hname

/-- A run changes no source, however it ends. -/
theorem node?_source_compileFile (arguments : List String) (d : Disk)
    (place : List String) {name : String} (hname : ".bf".toList <:+ name.toList) :
    ((compileFile arguments).runOn d).2.tree.node? (place ++ [name]) =
      d.tree.node? (place ++ [name]) := by
  rcases refused_or_endless_or_prepared arguments d.tree with
    ⟨ending, h⟩ | h | ⟨target, source, c, h⟩
  · rw [h.compileFile]
  · rw [h.compileFile]
  · obtain ⟨r, d', hcompiled, hrun⟩ := h.compileFile
    rw [hrun]
    exact hcompiled.sameBut _ (walk_output_ne h.line d.tree place hname)

/-! ## Runs one after the other

A run meets whatever the runs before it have left, so the theorem is about one
run behind any others, on any disk and with any faults to come. -/

/-- Runs with these command lines, one after the other. There is no run behind one
that never ends. -/
def compileAll {Handle : Type} : List (List String) → Script Handle (List Ending)
  | [] => return []
  | arguments :: rest => do
    let ending ← compileFile arguments
    return ending :: (← compileAll rest)

theorem runOn_compileAll_cons (arguments : List String) (rest : List (List String))
    (d : Disk) :
    (compileAll (arguments :: rest)).runOn d =
      match (compileFile arguments).runOn d with
      | (some ending, d') =>
        (((compileAll rest).runOn d').1.map (ending :: ·),
          ((compileAll rest).runOn d').2)
      | (none, d') => (none, d') := by
  rw [compileAll, runOn_bind]
  rcases (compileFile arguments).runOn d with ⟨ending | ending, d'⟩
  · rfl
  · simp only [runOn_bind]
    rcases (compileAll rest).runOn d' with ⟨endings | endings, d''⟩ <;> rfl

/-- One more run goes on where the others have ended. -/
theorem runOn_compileAll_append {runs : List (List String)} {arguments : List String}
    {endings : List Ending} {d d' : Disk}
    (h : (compileAll runs).runOn d = (some endings, d')) :
    (compileAll (runs ++ [arguments])).runOn d =
      (((compileFile arguments).runOn d').1.map (endings ++ [·]),
        ((compileFile arguments).runOn d').2) := by
  induction runs generalizing d endings with
  | nil =>
      cases h
      rw [List.nil_append, runOn_compileAll_cons]
      rcases (compileFile arguments).runOn d' with ⟨ending | ending, d''⟩ <;> rfl
  | cons first rest ih =>
      rw [runOn_compileAll_cons] at h
      rw [List.cons_append, runOn_compileAll_cons]
      rcases hfirst : (compileFile first).runOn d with ⟨ending | ending, mid⟩
      · rw [hfirst] at h
        cases h
      · rcases hrest : (compileAll rest).runOn mid with ⟨more | more, last⟩
        · simp only [hfirst, hrest] at h
          cases h
        · simp only [hfirst, hrest] at h
          cases h
          simp only [ih hrest, Option.map_map]
          rfl

/-- Every run of a sequence that is reached keeps to its frame, and no source is
changed by any of them. -/
theorem runs_framed (runs : List (List String)) (d : Disk) :
    (∀ k arguments endings d', runs[k]? = some arguments →
      (compileAll (runs.take k)).runOn d = (some endings, d') →
      ∃ ending d'', Framed arguments d' ending d'' ∧
        (compileAll (runs.take (k + 1))).runOn d =
          (ending.map (endings ++ [·]), d'')) ∧
    ∀ place name, ".bf".toList <:+ name.toList →
      ((compileAll runs).runOn d).2.tree.node? (place ++ [name]) =
        d.tree.node? (place ++ [name]) := by
  constructor
  · intro k arguments endings d' hk hrun
    refine ⟨_, _, compileFile_framed arguments d', ?_⟩
    rw [List.take_add_one, hk]
    exact runOn_compileAll_append hrun
  · intro place name hname
    induction runs generalizing d with
    | nil => rfl
    | cons arguments rest ih =>
        have hfirst := node?_source_compileFile arguments d place hname
        rw [runOn_compileAll_cons]
        rcases hrun : (compileFile arguments).runOn d with ⟨ending | ending, d'⟩
        · rwa [hrun] at hfirst
        · rw [hrun] at hfirst
          exact (ih d').trans hfirst

/-- A write that fails keeps five bytes of the program, and they are gone when the
run ends. The malformed source behind it leaves an older program alone. -/
theorem runs_framed_malformed :
    let files : List (List String × Files.Node) :=
      [(["b.bf"], .file [0x5D]), (["b.asm"], .file [0x31])]
    let d : Disk := ⟨⟨(["a.bf"], .file [0x2B]) :: files⟩, [some ⟨.noSpace, 5⟩]⟩
    let d' : Disk := ⟨⟨(["a.bf"], .file [0x2B]) :: files⟩, []⟩
    let full := Ending.unwritable "a.asm" "[Errno 28] No space left on device"
    (compileAll [["a.bf"]]).runOn d = (some [full], d') ∧
      (compileAll [["a.bf"], ["b.bf"]]).runOn d =
        (some [full, .malformed (.unmatchedClose 0)], d') ∧
      d'.tree.node? ["b.bf"] = d.tree.node? ["b.bf"] := by
  intro files d d' full
  have hfirst : (compileAll [["a.bf"]]).runOn d = (some [full], d') := by
    decide +kernel
  have htarget : Target.ofArguments ["b.bf"] =
      .ok ⟨"b.bf", { components := ["b.bf"] }, { components := ["b.asm"] }⟩ := by
        decide
  obtain ⟨ending, d'', hframed, hsecond⟩ :=
    (runs_framed [["a.bf"], ["b.bf"]] d).1 1 ["b.bf"] [full] d' rfl hfirst
  obtain ⟨rfl, rfl⟩ := hframed.refused _ (.malformed htarget rfl rfl rfl)
  have hsource := (runs_framed [["a.bf"], ["b.bf"]] d).2 [] "b.bf" (by decide)
  have hboth : (compileAll [["a.bf"], ["b.bf"]]).runOn d = _ := hsecond
  rw [hboth] at hsource
  exact ⟨hfirst, hboth, hsource⟩

end TapeMips.CommandLine
