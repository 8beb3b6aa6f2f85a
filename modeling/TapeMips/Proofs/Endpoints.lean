import TapeMips.Proofs.AssemblyText
import TapeMips.Proofs.JsonText
import TapeMips.Proofs.LineEnds
import TapeMips.Proofs.Utf8

/-!
# The two ways of compiling over HTTP

A source can be sent as a member of a JSON object or as the body itself. The two
requests are read by different means: one is decoded by what its first bytes
show, parsed and searched for a name, the other is decoded as UTF-8. What they
hold is the same source, and from there on one attempt at compiling decides
(`attempt`): its refusals are passed on as they are, and only a program that was
compiled is presented in different forms.

So the two answers agree. The status tells which of three things happened, the
length is looked at before the brackets, and the program stands in the JSON
object, in the plain text and between the marks of the page letter by letter,
because it holds nothing that HTML would have to write in another way.
-/

namespace TapeMips.Http

open Source Codegen Text

/-- A request that sends a source as a JSON member. How the JSON is encoded and
spelled and which other members there are is left open. -/
structure PostsMember (r : Request) (source : String) : Prop where
  method : r.method = "POST"
  path : r.path = "/api/compile"
  type : isJsonType ((r.header? "content-type").getD "") = true
  body : ∃ points members, decodeDetected? r.body = some points ∧
    Json.read points = .ok (.object members) ∧
    Json.member? members "code" = some (.ofText source)

/-- A request that sends these bytes as a source. -/
structure PostsBytes (r : Request) (bytes : List UInt8) : Prop where
  method : r.method = "POST"
  path : r.path = "/compile"
  type : mediaType ((r.header? "content-type").getD "") ∈ sourceMediaTypes
  body : r.body = bytes

def Request.prefersPage (r : Request) : Bool :=
  prefersHtml ((r.header? "accept").getD "")

/-- The request whose body is the JSON object with the source as its only member. -/
def memberRequest (source : String) : Request where
  method := "POST"
  path := "/api/compile"
  headers := [("Content-Type", "application/json")]
  body := Utf8.encode (Json.writtenObject [("code", Json.writtenString source)])

theorem decodeDetected?_memberRequest (source : String) :
    decodeDetected? (memberRequest source).body =
      some (.ofText (Json.writtenObject [("code", Json.writtenString source)])) := by
  -- The first bytes are ASCII and not zero, so they show neither a mark nor a
  -- wider encoding.
  have htext : ∃ rest,
      (Json.writtenObject [("code", Json.writtenString source)]).toList =
        '\x7b' :: '"' :: 'c' :: 'o' :: rest := by
    simp only [Json.writtenObject, List.map_cons, List.map_nil,
      String.intercalate_singleton, String.toList_append, Json.writtenString,
      String.toList_ofList]
    exact ⟨_, rfl⟩
  have hbytes : ∃ rest, (memberRequest source).body =
      0x7B :: 0x22 :: 0x63 :: 0x6F :: rest := by
    obtain ⟨rest, hrest⟩ := htext
    rw [memberRequest, Utf8.encode_eq, hrest]
    exact ⟨_, rfl⟩
  obtain ⟨rest, hrest⟩ := hbytes
  have hdetect : Encoding.detect (memberRequest source).body =
      (.utf8, (memberRequest source).body) := by
    rw [hrest]
    rfl
  rw [decodeDetected?, hdetect]
  simp only [memberRequest, Utf8.decodeLoosely_encode, Except.toOption]

theorem postsMember_memberRequest (source : String) :
    PostsMember (memberRequest source) source where
  method := rfl
  path := rfl
  type := by
    have hname : ("Content-Type".toLower == "content-type") = true := by decide +kernel
    have hheader : (memberRequest source).header? "content-type" =
        some "application/json" := by
      simp only [Request.header?, memberRequest, List.find?_cons, hname,
        Option.map_some]
    rw [hheader]
    decide +kernel
  body := ⟨_, _, decodeDetected?_memberRequest source,
    Json.read_member "code" source, rfl⟩

theorem PostsMember.sourceOfRequest {r : Request} {source : String}
    (h : PostsMember r source) : sourceOfRequest r = .ok (.ok source) := by
  obtain ⟨points, members, hdecode, hread, hmember⟩ := h.body
  have hbody : r.body.isEmpty = false := by
    cases hempty : r.body with
    | nil =>
        rw [hempty] at hdecode
        cases hdecode
        cases hread
    | cons b rest => rfl
  have hsource : sourceOfJson (.object members) = .ok source := by
    rw [sourceOfJson, hmember]
    simp only [Json.ofText, CodePoints.text_ofText]
  rw [Http.sourceOfRequest, hbody, h.type]
  simp only [hdecode, hread, hsource, Bool.not_true, Bool.false_eq_true, if_false]

theorem PostsMember.respond {r : Request} {source : String} (h : PostsMember r source)
    (limit : Int) :
    respond limit r = .ok ((attempt limit source).answer presentJson) := by
  have hroute : routes.find? (·.matches "/api/compile") =
      some { path := "/api/compile", method := "POST", answer := compileJson } := by
    rfl
  rw [Http.respond, h.path, hroute]
  simp only [h.method, if_true]
  rw [compileJson, h.sourceOfRequest]
  rfl

theorem PostsBytes.respond {r : Request} {bytes : List UInt8} (h : PostsBytes r bytes)
    (limit : Int) : respond limit r = .ok (compileBody limit r) := by
  have hroute : routes.find? (·.matches "/compile") =
      some { path := "/compile", method := "POST"
             answer := fun limit r => .ok (compileBody limit r) } := by
    rfl
  rw [Http.respond, h.path, hroute]
  simp only [h.method, if_true]

theorem PostsBytes.undecodable {r : Request} {bytes : List UInt8}
    (h : PostsBytes r bytes) (limit : Int) {e : Utf8.DecodeError}
    (hdecode : Utf8.decode bytes = .error e) :
    Http.respond limit r =
      .ok { response := refusal 400 "Request body must be UTF-8 text" } := by
  rw [h.respond, compileBody]
  simp only [List.contains_iff_mem.mpr h.type, h.body, hdecode, Bool.not_true,
    Bool.false_eq_true, if_false]

theorem PostsBytes.decoded {r : Request} {bytes : List UInt8} (h : PostsBytes r bytes)
    (limit : Int) {cs : List Char} (hdecode : Utf8.decode bytes = .ok cs) :
    Http.respond limit r = .ok ((attempt limit (String.ofList cs)).answer
      (if r.prefersPage then presentPage else presentPlain)) := by
  rw [h.respond, compileBody]
  simp only [List.contains_iff_mem.mpr h.type, h.body, hdecode, Bool.not_true,
    Bool.false_eq_true, if_false]
  rfl

section Attempt

variable {limit : Int} {source : String} (present : Compilation → Response)

theorem answer_of_tooLong (h : limit < source.length) :
    ((attempt limit source).answer present).response =
      refusal 413 s!"Source exceeds {limit} characters" := by
  rw [attempt, if_pos h]
  rfl

theorem answer_of_malformed (h : source.length ≤ limit) {e : Malformed}
    (he : compile source = .error e) :
    ((attempt limit source).answer present).response = refusal 422 e.message := by
  rw [attempt, if_neg (Int.not_lt.mpr h), he]
  rfl

theorem answer_of_compiled (h : source.length ≤ limit) {c : Compilation}
    (hc : compile source = .ok c) :
    ((attempt limit source).answer present).response = present c := by
  rw [attempt, if_neg (Int.not_lt.mpr h), hc]
  rfl

end Attempt

/-! ## What the answers hold

An answer is followed to its text: the JSON object member by member, the page
up to the mark behind the program. A program has no character that HTML
reserves, so the page has it letter by letter, and the mark behind it is the
first of its kind. -/

/-- The answer is this value as JSON. -/
def Response.Carries (r : Response) (v : Json) : Prop :=
  jsonHeader ∈ r.headers ∧
    ∃ text, r.content = .text text ∧ CodePoints.ofText text = v.written fun _ => true

theorem carries_refusal (status : Nat) (detail : String) :
    (refusal status detail).Carries
      (.object [(.ofText "detail", .ofText detail)]) := by
  refine ⟨List.mem_cons_self, _, rfl, Json.points_writtenObject ?_⟩
  exact .cons ⟨rfl, Json.writtenPoints_ofText detail⟩ .nil

theorem carries_presentJson (c : Compilation) :
    (presentJson c).Carries (.object [(.ofText "assembly", .ofText c.assembly),
      (.ofText "loop_count", .integer c.context.count),
      (.ofText "line_count", .integer (lineCount c.assembly))]) := by
  refine ⟨List.mem_cons_self, _, rfl, Json.points_writtenObject ?_⟩
  refine .cons ⟨rfl, Json.writtenPoints_ofText c.assembly⟩
    (.cons ⟨rfl, ?_⟩ (.cons ⟨rfl, ?_⟩ .nil))
  · rfl
  · rfl

/-- The text stands between the first two marks of the page. -/
def Encloses (page text : String) : Prop :=
  ∃ front back, page = front ++ "<pre>" ++ text ++ "</pre>" ++ back ∧
    ¬ "<pre>".toList <:+: front.toList ∧ '<' ∉ text.toList

/-- What stands on a page before the program. -/
def pageHead : String :=
  "<!DOCTYPE html>\n<html>\n" ++
    "<head><meta charset=\"utf-8\"><title>bfmips output</title></head>\n" ++ "<body>\n"

theorem page_eq {assembly : String} (h : Unreserved assembly) :
    page assembly = pageHead ++ "<pre>" ++ assembly ++ "</pre>" ++
      "\n</body>\n</html>\n" := by
  have hmark : "<body>\n<pre>" = "<body>\n" ++ "<pre>" := by decide
  have hend : "</pre>\n</body>\n</html>\n" = "</pre>" ++ "\n</body>\n</html>\n" := by
    decide
  unfold page pageHead
  simp only [markup_eq_self h, hmark, hend, String.append_assoc]

theorem encloses_page {assembly : String} (h : Unreserved assembly) :
    Encloses (page assembly) assembly := by
  have hhead : ¬ "<pre>".toList <:+: pageHead.toList := by decide +kernel
  exact ⟨_, _, page_eq h, hhead, fun hmem => absurd (h _ hmem) (by decide)⟩

/-- The answer to a request for the program itself: on a page, or as it is. -/
def Response.Shows (r : Response) (page : Bool) (assembly : String) : Prop :=
  if page then ∃ text, r.content = .text text ∧ Encloses text assembly
  else r.content = .text assembly

theorem shows_present (page : Bool) {c : Compilation} (h : Unreserved c.assembly) :
    ((if page then presentPage else presentPlain) c).Shows page c.assembly := by
  cases page with
  | false => rfl
  | true => exact ⟨_, rfl, encloses_page h⟩

/-- How the answers to the two requests for one source agree; `page` tells whether
the second is to be a page. -/
structure Agree (limit : Int) (source : String) (page : Bool) (a b : Response) :
    Prop where
  status_eq : a.status = b.status
  tooLong_iff : a.status = 413 ↔ limit < source.length
  malformed_iff : a.status = 422 ↔ source.length ≤ limit ∧ isBalanced source = false
  compiled_iff : a.status = 200 ↔ source.length ≤ limit ∧ isBalanced source = true
  /-- Both refuse a malformed source with what the validator says about it. -/
  detail : a.status = 422 → ∃ e, nestingDepth source = .error e ∧
    a.Carries (.object [(.ofText "detail", .ofText e.message)]) ∧
    b.Carries (.object [(.ofText "detail", .ofText e.message)])
  /-- Both answer with the same program, letter by letter. -/
  program : a.status = 200 → ∃ c, compile source = .ok c ∧
    Unreserved c.assembly ∧ markup c.assembly = c.assembly ∧
    a.Carries (.object [(.ofText "assembly", .ofText c.assembly),
      (.ofText "loop_count", .integer (source.toList.count '[')),
      (.ofText "line_count", .integer (lineTotal source.toList))]) ∧
    b.Shows page c.assembly

theorem agree_tooLong {limit : Int} {source : String} (h : limit < source.length)
    (page : Bool) (detail : String) :
    Agree limit source page (refusal 413 detail) (refusal 413 detail) := by
  have hnot : ¬ source.length ≤ limit := Int.not_le.mpr h
  constructor
  case status_eq => rfl
  case tooLong_iff => simpa [refusal] using h
  case malformed_iff => simp [refusal, hnot]
  case compiled_iff => simp [refusal, hnot]
  case detail =>
      intro hstatus
      cases hstatus
  case program =>
      intro hstatus
      cases hstatus

theorem agree_malformed {limit : Int} {source : String} (h : source.length ≤ limit)
    (page : Bool) {e : Malformed} (he : nestingDepth source = .error e) :
    Agree limit source page (refusal 422 e.message) (refusal 422 e.message) := by
  have hbalanced : isBalanced source = false := by
    rw [isBalanced, he]
    rfl
  constructor
  case status_eq => rfl
  case tooLong_iff => simpa [refusal] using h
  case malformed_iff => simpa [refusal, hbalanced] using h
  case compiled_iff => simp [refusal, hbalanced]
  case detail =>
      intro _
      exact ⟨e, he, carries_refusal 422 e.message, carries_refusal 422 e.message⟩
  case program =>
      intro hstatus
      cases hstatus

theorem unreserved_of_compile {source : String} {c : Compilation}
    (h : compile source = .ok c) : Unreserved c.assembly := by
  rw [compile_of_depth (depth_of_compile h), Except.ok.injEq] at h
  rw [← h]
  exact unreserved_textOf (unreserved_code _)

theorem agree_compiled {limit : Int} {source : String} (h : source.length ≤ limit)
    (page : Bool) {c : Compilation} (hc : compile source = .ok c) :
    Agree limit source page (presentJson c)
      ((if page then presentPage else presentPlain) c) := by
  have hdepth := depth_of_compile hc
  have hbalanced : isBalanced source = true := (isBalanced_iff_depth source).mpr hdepth
  have hunreserved := unreserved_of_compile hc
  have heq := (compile_of_depth hdepth).symm.trans hc
  rw [Except.ok.injEq] at heq
  have hcount : c.context.count = source.toList.count '[' := by rw [← heq]
  have hlines : lineCount c.assembly = lineTotal source.toList := by
    rw [← heq]
    exact lineCount_code _
  constructor
  case status_eq => cases page <;> rfl
  case tooLong_iff => simpa [presentJson] using h
  case malformed_iff => simp [presentJson, hbalanced]
  case compiled_iff => simpa [presentJson, hbalanced] using h
  case detail =>
      intro hstatus
      cases hstatus
  case program =>
      intro _
      refine ⟨c, hc, hunreserved, markup_eq_self hunreserved, ?_,
        shows_present page hunreserved⟩
      rw [← hcount, ← hlines]
      exact carries_presentJson c

theorem agree_attempt (limit : Int) (source : String) (page : Bool) :
    Agree limit source page ((attempt limit source).answer presentJson).response
      ((attempt limit source).answer
        (if page then presentPage else presentPlain)).response := by
  rcases Int.lt_or_le limit source.length with hlong | hfits
  · rw [answer_of_tooLong _ hlong, answer_of_tooLong _ hlong]
    exact agree_tooLong hlong page _
  · cases hcompile : compile source with
    | error e =>
        rw [answer_of_malformed _ hfits hcompile, answer_of_malformed _ hfits hcompile]
        exact agree_malformed hfits page ((compile_eq_error_iff source e).mp hcompile)
    | ok c =>
        rw [answer_of_compiled _ hfits hcompile, answer_of_compiled _ hfits hcompile]
        exact agree_compiled hfits page hcompile

/-- The two ways of compiling a source over HTTP agree. -/
theorem endpoints_agree (limit : Int) (source : String) :
    PostsMember (memberRequest source) source ∧
    ∀ r q, PostsMember r source → PostsBytes q (Utf8.encode source) →
      ∃ a b, respond limit r = .ok a ∧ respond limit q = .ok b ∧
        Agree limit source q.prefersPage a.response b.response := by
  refine ⟨postsMember_memberRequest source, fun r q hr hq => ?_⟩
  have hsecond := hq.decoded limit (Utf8.decode_encode source)
  rw [String.ofList_toList] at hsecond
  exact ⟨_, _, hr.respond limit, hsecond, agree_attempt limit source q.prefersPage⟩

def pageRequest (source : String) : Request where
  method := "POST"
  path := "/compile"
  headers := [("accept", "text/plain;q=0.5, text/html"),
    ("content-type", "text/plain; charset=utf-8")]
  body := Utf8.encode source

/-- A source that is just short enough, asked for as JSON and as a page. -/
theorem endpoints_agree_page :
    PostsMember (memberRequest "+[-].\n") "+[-].\n" ∧
      PostsBytes (pageRequest "+[-].\n") (Utf8.encode "+[-].\n") ∧
      (pageRequest "+[-].\n").prefersPage = true ∧
      ∃ a b, respond 6 (memberRequest "+[-].\n") = .ok a ∧
        respond 6 (pageRequest "+[-].\n") = .ok b ∧
        Agree 6 "+[-].\n" true a.response b.response := by
  have hmember := (endpoints_agree 6 "+[-].\n").1
  have hbytes : PostsBytes (pageRequest "+[-].\n") (Utf8.encode "+[-].\n") :=
    ⟨rfl, rfl, by decide +kernel, rfl⟩
  have hpage : (pageRequest "+[-].\n").prefersPage = true := by decide +kernel
  have hagree := (endpoints_agree 6 "+[-].\n").2 _ _ hmember hbytes
  rw [hpage] at hagree
  exact ⟨hmember, hbytes, hpage, hagree⟩

end TapeMips.Http
