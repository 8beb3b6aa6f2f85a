import TapeMips.Compile
import TapeMips.Http.Accept
import TapeMips.Http.Json
import TapeMips.Text.Encoding
import TapeMips.Text.Quoted

/-!
# The compile service

The service answers three paths. One tells that it is alive; one takes a source
as a JSON member and answers with JSON; one takes a source as the body itself
and answers with the program, as plain text or inside a page.

Both ways of compiling share one rule: a source that is too long is refused
before it is looked at, and a malformed one with the reason. What they do is
written to a log, and a refusal for length is not.

A request that does not have the form asked for is refused with a complaint that
repeats the part of it that is to blame. Not everything that can be received can
be sent back, so such a refusal may fail itself; then there is no answer at all.
-/

namespace TapeMips.Http

structure Request where
  method : String
  path : String
  /-- Names and values in the order in which they were sent. -/
  headers : List (String × String) := []
  body : List UInt8 := []
  deriving Repr

/-- The value of a header; names are compared without case, and the first one
counts. -/
def Request.header? (r : Request) (name : String) : Option String :=
  (r.headers.find? fun h => h.1.toLower == name).map (·.2)

/-- What is wrong with a request that should hold a JSON object with a source. -/
inductive Complaint where
  | bodyMissing
  | bodyMalformed
  | bodyNotObject
  | codeMissing
  | codeNotString
  deriving DecidableEq, Repr

namespace Complaint

/-- The name of the kind of complaint. -/
def kind : Complaint → String
  | .bodyMissing | .codeMissing => "missing"
  | .bodyMalformed => "json_invalid"
  | .bodyNotObject => "model_attributes_type"
  | .codeNotString => "string_type"

/-- The part of the request that is to blame. A malformed body has no parts. -/
def location : Complaint → List String
  | .bodyMalformed => []
  | .bodyMissing | .bodyNotObject => ["body"]
  | .codeMissing | .codeNotString => ["body", "code"]

def advice : Complaint → String
  | .bodyMissing | .codeMissing => "Field required"
  | .bodyMalformed => "JSON decode error"
  | .bodyNotObject =>
    "Input should be a valid dictionary or object to extract fields from"
  | .codeNotString => "Input should be a valid string"

/-- The complaint as it is sent, with the part that is to blame. -/
def report (c : Complaint) (blamed : Json) : Json :=
  let entry : Json := .object [
    (.ofText "type", .ofText c.kind),
    (.ofText "loc", .array (c.location.map .ofText)),
    (.ofText "msg", .ofText c.advice),
    (.ofText "input", blamed)]
  .object [(.ofText "detail", .array [entry])]

end Complaint

/-- Why a request got no answer at all: the complaint about it cannot be sent. -/
inductive Breakdown where
  /-- The part that is to blame is no text. -/
  | undecodable (error : Text.Utf8.DecodeError)
  /-- It has no JSON text. -/
  | unwritable (error : Json.WriteError)
  /-- It holds surrogates. -/
  | unencodable (error : Text.Utf8.EncodeError)
  deriving DecidableEq, Repr

def Breakdown.message : Breakdown → String
  | .undecodable e => e.message
  | .unwritable .notFinite => "Out of range float values are not JSON compliant"
  | .unwritable .notFiniteAtLimit =>
    "maximum recursion depth exceeded while calling a Python object"
  | .unwritable .tooDeep =>
    "maximum recursion depth exceeded while encoding a JSON object"
  | .unencodable e => e.message

/-- What an answer carries. -/
inductive Content where
  | text (content : String)
  /-- The request does not have the form that is asked for. -/
  | complaint (reason : Complaint)
  deriving DecidableEq, Repr

structure Response where
  status : Nat
  /-- Headers other than the length. -/
  headers : List (String × String)
  content : Content
  deriving DecidableEq, Repr

/-- The headers of an answer; a text also has its length in bytes. -/
def Response.allHeaders (r : Response) : List (String × String) :=
  match r.content with
  | .text content => ("content-length", toString content.utf8ByteSize) :: r.headers
  | .complaint _ => r.headers

/-- A line of the log. -/
inductive LogEntry where
  /-- The compiler's remark that it compiled a source. -/
  | compiler (remark : String)
  /-- What the service did with a request. -/
  | service (remark : String)
  deriving DecidableEq, Repr

/-- An answer and what was written to the log. -/
structure Answer where
  response : Response
  log : List LogEntry := []
  deriving DecidableEq, Repr

def jsonHeader : String × String := ("content-type", "application/json")

/-- A refusal with its reason. -/
def refusal (status : Nat) (detail : String) (headers : List (String × String) := []) :
    Response where
  status := status
  headers := jsonHeader :: headers
  content := .text (Json.writtenObject [("detail", Json.writtenString detail)])

/-- A complaint that repeats nothing. -/
def complain (reason : Complaint) : Response where
  status := 422
  headers := [jsonHeader]
  content := .complaint reason

/-- Members whose names begin like this are never sent back. -/
def isRepeated (name : Text.CodePoints) : Bool :=
  !(Text.CodePoints.ofText "_sa").isPrefixOf name

/-- A complaint that repeats the part that is to blame. -/
def complainOf (reason : Complaint) (blamed : Json) : Except Breakdown Response :=
  let report := reason.report blamed
  match report.writeError? isRepeated Json.maxWrittenDepth with
  | some e => .error (.unwritable e)
  | none =>
    if blamed.isPlain isRepeated then .ok (complain reason)
    else
      match Text.Utf8.encodeError? (report.written isRepeated) with
      | some e => .error (.unencodable e)
      | none => .ok (complain reason)

/-- What comes of a source that was sent to be compiled. -/
structure Attempt where
  result : Except Response Compilation
  log : List LogEntry

/-- The number of lines of a program. -/
def lineCount (assembly : String) : Nat := assembly.toList.count '\n'

/-- Compiles a source of at most `limit` characters. -/
def attempt (limit : Int) (source : String) : Attempt :=
  if limit < source.length then
    { result := .error (refusal 413 s!"Source exceeds {limit} characters"), log := [] }
  else
    match compile source with
    | .error e =>
      { result := .error (refusal 422 e.message)
        log := [.service ("Rejected malformed program: " ++ e.message)] }
    | .ok c =>
      { result := .ok c
        log := [.compiler c.remark,
          .service (s!"Compiled {source.length} characters " ++
            s!"into {lineCount c.assembly} lines")] }

/-- Answers with a compiled program, or with the refusal. -/
def Attempt.answer (a : Attempt) (present : Compilation → Response) : Answer :=
  match a.result with
  | .error r => { response := r, log := a.log }
  | .ok c => { response := present c, log := a.log }

/-- The content type is JSON: `application/json`, or another application type that
ends in `+json`. -/
def isJsonType (contentType : String) : Bool :=
  match splitType (mediaType contentType).toList with
  | some (main, sub) =>
    main = "application".toList && (sub = "json".toList || endsInJson sub)
  | none => false
where
  /-- The two halves of a media type, which has exactly one slash. -/
  splitType (cs : List Char) : Option (List Char × List Char) :=
    match Text.splitAt '/' cs with
    | [main, sub] => some (main, sub)
    | _ => none
  endsInJson (cs : List Char) : Bool := "+json".toList.isSuffixOf cs

/-- The source that a JSON value holds, or what is to be complained of and the
part that is to blame. -/
def sourceOfJson : Json → Except (Complaint × Json) String
  | .object members =>
    match Json.member? members "code" with
    | some (.string code) => .ok (Text.CodePoints.text code)
    | some other => .error (.codeNotString, other)
    | none => .error (.codeMissing, .object members)
  | value => .error (.bodyNotObject, value)

/-- The source that a request holds as a JSON member, or the refusal. A body that
is not sent as JSON is a text, and as such no object. -/
def sourceOfRequest (r : Request) : Except Breakdown (Except Response String) :=
  if r.body.isEmpty then .ok (.error (complain .bodyMissing))
  else if !isJsonType ((r.header? "content-type").getD "") then
    match Text.Utf8.decode r.body with
    | .error e => .error (.undecodable e)
    | .ok _ => .ok (.error (complain .bodyNotObject))
  else
    let unreadable := refusal 400 "There was an error parsing the body"
    match Text.decodeDetected? r.body with
    | none => .ok (.error unreadable)
    | some points =>
      match Json.read points with
      | .error .malformed => .ok (.error (complain .bodyMalformed))
      | .error .excessive => .ok (.error unreadable)
      | .ok value =>
        match sourceOfJson value with
        | .ok source => .ok (.ok source)
        | .error (reason, blamed) => (complainOf reason blamed).map .error

/-- A compiled program as JSON. -/
def presentJson (c : Compilation) : Response where
  status := 200
  headers := [jsonHeader]
  content := .text (Json.writtenObject [
    ("assembly", Json.writtenString c.assembly),
    ("loop_count", toString c.context.count),
    ("line_count", toString (lineCount c.assembly))])

def compileJson (limit : Int) (r : Request) : Except Breakdown Answer :=
  (sourceOfRequest r).map fun
    | .error response => { response }
    | .ok source => (attempt limit source).answer presentJson

/-- The media types of sources, in alphabetical order. -/
def sourceMediaTypes : List String := ["text/plain", "text/x-brainfuck"]

def wrongMediaType (contentType : String) : Response :=
  let expected := ", ".intercalate (sourceMediaTypes.map Text.quoted)
  let got := if contentType = "" then "none" else contentType
  refusal 415 ("Expected one of [" ++ expected ++ "], got '" ++ got ++ "'")

/-- How a character is written in HTML text: five have a meaning of their own there. -/
def markupChar : Char → List Char
  | '&' => "&amp;".toList
  | '<' => "&lt;".toList
  | '>' => "&gt;".toList
  | '"' => "&quot;".toList
  | '\'' => "&#x27;".toList
  | c => [c]

/-- The text as it is written in HTML. -/
def markup (text : String) : String := String.ofList (text.toList.flatMap markupChar)

/-- A page that shows a program. -/
def page (assembly : String) : String :=
  "<!DOCTYPE html>\n<html>\n" ++
    "<head><meta charset=\"utf-8\"><title>bfmips output</title></head>\n" ++
    "<body>\n<pre>" ++ markup assembly ++ "</pre>\n</body>\n</html>\n"

def presentPage (c : Compilation) : Response where
  status := 200
  headers := [("content-type", "text/html; charset=utf-8")]
  content := .text (page c.assembly)

def presentPlain (c : Compilation) : Response where
  status := 200
  headers := [("content-disposition", "attachment; filename=\"program.asm\""),
    ("content-type", "text/plain; charset=utf-8")]
  content := .text c.assembly

def compileBody (limit : Int) (r : Request) : Answer :=
  let contentType := mediaType ((r.header? "content-type").getD "")
  if !sourceMediaTypes.contains contentType then
    { response := wrongMediaType contentType }
  else
    match Text.Utf8.decode r.body with
    | .error _ => { response := refusal 400 "Request body must be UTF-8 text" }
    | .ok cs =>
      let present :=
        if prefersHtml ((r.header? "accept").getD "") then presentPage
        else presentPlain
      (attempt limit (String.ofList cs)).answer present

def health : Response where
  status := 200
  headers := [jsonHeader]
  content := .text (Json.writtenObject [("status", Json.writtenString "ok")])

/-- A path with the one method that it answers. -/
structure Route where
  path : String
  method : String
  answer : (limit : Int) → Request → Except Breakdown Answer

def routes : List Route := [
  { path := "/api/health", method := "GET",
    answer := fun _ _ => .ok { response := health } },
  { path := "/api/compile", method := "POST", answer := compileJson },
  { path := "/compile", method := "POST",
    answer := fun limit r => .ok (compileBody limit r) }]

/-- A path leads to a route also with one line feed behind it. -/
def Route.matches (route : Route) (path : String) : Bool :=
  path == route.path || path == route.path ++ "\n"

/-- Answers a request; sources of more than `limit` characters are refused. -/
def respond (limit : Int) (r : Request) : Except Breakdown Answer :=
  match routes.find? (·.matches r.path) with
  | none => .ok { response := refusal 404 "Not Found" }
  | some route =>
    if route.method = r.method then route.answer limit r
    else .ok { response := refusal 405 "Method Not Allowed" [("allow", route.method)] }

end TapeMips.Http
