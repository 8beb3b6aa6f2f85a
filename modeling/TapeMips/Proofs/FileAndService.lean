import TapeMips.Proofs.Endpoints
import TapeMips.Proofs.FileRuns

/-!
# A file compiled on the spot and sent to the service

The same bytes can be given to the command as a file and to the service as a body.
Both decode them in the same way, but the command reads a text file and unifies its
line ends before it looks at the program, and the service does not.

A carriage return and a line feed are comments, so unifying them keeps the commands
and their order: the program is balanced or not as before, and is compiled to the
same text. What changes is where a bracket stands. Every pair that becomes one
character moves what lies behind it by one, and only pairs do; so the position that
the command reports is that of the service less the pairs before it.
-/

namespace TapeMips

open CommandLine Files Http Source Text

/-- How a run of the command on a file with these bytes and the answer to a
request with the same bytes correspond. -/
inductive Corresponds (bytes : List UInt8) (output : Path) (page : Bool) (t : Tree) :
    Option Ending × Disk → Response → Prop where
  | undecodable {e : Utf8.DecodeError} {ending : Ending} {response : Response}
      (text : Utf8.decode bytes = .error e) (exit : ending.exitCode = 1)
      (status : response.status = 400) :
      Corresponds bytes output page t (some ending, { tree := t }) response
  | malformed {cs : List Char} {e : Malformed} {ending : Ending} {response : Response}
      (text : Utf8.decode bytes = .ok cs)
      (reason : nestingDepth (String.ofList cs) = .error e)
      (exit : ending.exitCode = 1)
      (errors : ending.errors =
        "Compilation error: " ++ (e.moved (unifiedPosition cs)).message ++ "\n")
      (status : response.status = 422)
      (detail : response.Carries (.object [(.ofText "detail", .ofText e.message)])) :
      Corresponds bytes output page t (some ending, { tree := t }) response
  | compiled {cs : List Char} {c : Compilation} {ending : Ending} {d : Disk}
      {response : Response} (text : Utf8.decode bytes = .ok cs)
      (program : compile (String.ofList cs) = .ok c) (exit : ending.exitCode = 0)
      (file : d.tree.find output = .ok (some (.file (Utf8.encode c.assembly))))
      (status : response.status = 200) (body : response.Shows page c.assembly) :
      Corresponds bytes output page t (some ending, d) response

section

variable {arguments : List String} {t : Tree} {target : Target} {bytes : List UInt8}
  {limit : Int} {r : Request}

/-- What can be decoded is compiled by both, or refused by both. -/
theorem corresponds_decoded (line : Target.ofArguments arguments = .ok target)
    (source : t.find target.source = .ok (some (.file bytes)))
    (houtput : t.Writable target.output) (page : Bool) {cs : List Char}
    (text : Utf8.decode bytes = .ok cs) (hfits : (cs.length : Int) ≤ limit) :
    Corresponds bytes target.output page t
      ((compileFile arguments).runOn { tree := t })
      ((attempt limit (String.ofList cs)).answer
        (if page then presentPage else presentPlain)).response := by
  have hfits : ((String.ofList cs).length : Int) ≤ limit := by simpa using hfits
  -- The service looks at the text itself; from what it finds follows what the
  -- command finds in the text with unified line ends.
  cases hcompile : compile (String.ofList cs) with
  | error e =>
      have hreason := (compile_eq_error_iff _ e).mp hcompile
      have hunified :=
        (compile_eq_error_iff _ _).mp (compile_unifyNewlines_error hcompile)
      have hrefused : Refused arguments ({ tree := t } : Disk).tree _ :=
        .malformed line source text hunified
      rw [hrefused.compileFile, answer_of_malformed _ hfits hcompile]
      exact .malformed text hreason rfl rfl rfl (carries_refusal 422 e.message)
  | ok c =>
      obtain ⟨c', hunified, hassembly, -⟩ := compile_unifyNewlines_ok hcompile
      have hbalanced :=
        (isBalanced_iff_depth _).mpr (Codegen.depth_of_compile hunified)
      have hprepared : Prepared arguments ({ tree := t } : Disk).tree target _ c' :=
        ⟨line, ⟨bytes, cs, source, text, rfl⟩, hbalanced, hunified⟩
      obtain ⟨r, d, hcompiled, hrun⟩ := hprepared.compileFile
      have hok : r = .ok () := hcompiled.ok_iff.mpr ⟨houtput, fun _ _ => rfl⟩
      subst hok
      rw [hrun, answer_of_compiled _ hfits hcompile]
      refine .compiled text hcompile rfl (hassembly ▸ hcompiled.program rfl) ?_ ?_
      · cases page <;> rfl
      · exact shows_present page (unreserved_of_compile hcompile)

/-- The command and the service agree on every file. -/
theorem compileFile_agrees_with_respond
    (line : Target.ofArguments arguments = .ok target)
    (source : t.find target.source = .ok (some (.file bytes)))
    (output : t.Writable target.output) (request : PostsBytes r bytes)
    (fits : ∀ cs, Utf8.decode bytes = .ok cs → (cs.length : Int) ≤ limit) :
    ∃ answer, respond limit r = .ok answer ∧
      Corresponds bytes target.output r.prefersPage t
        ((compileFile arguments).runOn { tree := t }) answer.response := by
  cases text : Utf8.decode bytes with
  | error e =>
      have hrefused : Refused arguments ({ tree := t } : Disk).tree _ :=
        .undecodable line source text
      refine ⟨_, request.undecodable limit text, ?_⟩
      rw [hrefused.compileFile]
      exact .undecodable text rfl rfl
  | ok cs =>
      exact ⟨_, request.decoded limit text,
        corresponds_decoded line source output r.prefersPage text (fits cs text)⟩

/-- A bracket too many behind a line end of two characters: the command reports
position 2, the service position 3. -/
theorem compileFile_agrees_with_respond_moved :
    let bytes : List UInt8 := [0x0D, 0x0A, 0x2B, 0x5D]
    let t : Tree := ⟨[(["a.bf"], .file bytes)]⟩
    let target : Target :=
      ⟨"a.bf", { components := ["a.bf"] }, { components := ["a.asm"] }⟩
    let r : Request :=
      { method := "POST", path := "/compile",
        headers := [("content-type", "text/plain")]
        body := bytes }
    Target.ofArguments ["a.bf"] = .ok target ∧
      t.find target.source = .ok (some (.file bytes)) ∧ t.Writable target.output ∧
      PostsBytes r bytes ∧ Utf8.decode bytes = .ok "\r\n+]".toList ∧
      ((compileFile ["a.bf"]).runOn { tree := t }).1 =
        some (.malformed (.unmatchedClose 2)) ∧
      nestingDepth "\r\n+]" = .error (.unmatchedClose 3) ∧
      ∃ answer, respond 4 r = .ok answer ∧
        Corresponds bytes target.output false t
          ((compileFile ["a.bf"]).runOn { tree := t }) answer.response := by
  intro bytes t target r
  have line : Target.ofArguments ["a.bf"] = .ok target := by decide
  have source : t.find target.source = .ok (some (.file bytes)) := by decide
  have output : t.Writable target.output := ⟨["a.asm"], by decide⟩
  have request : PostsBytes r bytes := ⟨rfl, rfl, by decide +kernel, rfl⟩
  have text : Utf8.decode bytes = .ok "\r\n+]".toList := by decide
  have fits : ∀ cs, Utf8.decode bytes = .ok cs → (cs.length : Int) ≤ 4 := by
    intro cs hcs
    rw [text] at hcs
    cases hcs
    decide
  have hpage : r.prefersPage = false := by decide +kernel
  have hagree := compileFile_agrees_with_respond line source output request fits
  rw [hpage] at hagree
  exact ⟨line, source, output, request, text, by decide, by decide, hagree⟩

end

end TapeMips
