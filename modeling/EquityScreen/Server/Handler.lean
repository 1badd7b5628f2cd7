import EquityScreen.Command.Program
import EquityScreen.Server.MediaType
import EquityScreen.Text.Ascii
import EquityScreen.Text.Percent

/-!
# Answering requests over HTTP

A request is answered by its path first: an unknown path is not found, a known path with a method it does not have is not
allowed. A request with a body must say that the body is a document. A body whose text is no document is a bad request; a
document of another shape than asked for is refused as such, and the first fault in the text decides between the two. Only
the first document of a body is read. Every answer may be read from any origin, and a request for options is answered for
every path.
-/

namespace EquityScreen

open Json

/-- A request over HTTP. -/
structure HttpRequest where
  method : String
  /-- The path, with the query and the fragment after it if there are any; or a whole address. -/
  target : String
  contentType : Option String
  body : String

/-- The body of an answer. -/
inductive HttpBody where
  | empty
  | document (v : Json)
  /-- The response of a screen. -/
  | response (r : Response)

/-- The document of a body; `elapsed` is how many milliseconds the answer took. -/
def HttpBody.document? (elapsed : Nat) : HttpBody → Option Json
  | empty => none
  | document v => some v
  | response r => some (.object [("success", .bool true), ("data", r.toJson elapsed)])

/-- An answer over HTTP. -/
structure HttpAnswer where
  status : Nat
  body : HttpBody := .empty

namespace Server

/-- The origins that may read the answers: all of them. -/
def allowedOrigin : String := "*"

/-- An answer with a document. -/
def documentAnswer (status : Nat) (members : List (String × Json)) : HttpAnswer :=
  { status, body := .document (.object members) }

/-- The answer to a request whose body is a document that is read as asked for. -/
def withBody {α : Type} (r : HttpRequest) (read : Draft → Read α) (answer : α → HttpAnswer) : HttpAnswer :=
  if !(r.contentType.any MediaType.isDocument) then { status := 415 }
  else
    match read (Draft.ofText r.body).1 with
    | .ok a => answer a
    | .error .malformed => { status := 400 }
    | .error _ => { status := 422 }

/-- The answer to a screen. -/
def answerScreen (s : Screener) (today : Date) (request : Request) : HttpAnswer :=
  let failure (status : Nat) (error : String) (more : List (String × Json)) : HttpAnswer :=
    documentAnswer status ([("success", .bool false), ("error", .text error)] ++ more)
  match (s.run today request).run.value with
  | .ok r => { status := 200, body := .response r }
  | .error (.invalid issues) => failure 400 (Issue.summary issues) [("errors", .list (issues.map Issue.toJson))]
  | .error (.pushdown e) => failure 400 e.message []
  | .error (.store e) => failure 500 ("Screening failed: " ++ (ScreenError.store e).message) []

/-- The condition of a body that gives one. -/
def conditionOf (d : Draft) : Read Condition := do
  match ← d.readRecord [⟨["conditions"], fun d _ => return some (← d.readWhole 1 Condition.ofInput)⟩] none with
  | some c => return c
  | none => throw .shape

/-- The answer to a validation. -/
def answerValidation (s : Screener) (c : Condition) : HttpAnswer :=
  let report := s.validate c
  documentAnswer (if report.valid then 200 else 400) [("success", .bool report.valid), ("report", report.toJson)]

/-- The answer to a question for all fields. -/
def answerFields (s : Screener) : HttpAnswer :=
  let fields := s.fields.value
  documentAnswer 200
    [("success", .bool true), ("total", .nat fields.length), ("fields", .list (fields.map FieldInfo.toJson))]

/-- The answer to a question for one field, whose name stands in the path. -/
def answerField (s : Screener) (segment : String) : HttpAnswer :=
  match Text.percentDecoded segment with
  | .error _ => { status := 400 }
  | .ok name =>
    match (s.field? name).value with
    | some f => documentAnswer 200 [("success", .bool true), ("field", f.toJson)]
    | none => { status := 404 }

/-- The answer to a question for the industries. -/
def answerIndustries (s : Screener) : HttpAnswer :=
  match s.industries.run.value with
  | .ok is => documentAnswer 200 [("success", .bool true), ("industries", .list (is.map IndustryCount.toJson))]
  | .error e =>
    documentAnswer 500 [("success", .bool false), ("error", .text ("Failed to list industries: " ++ e.message))]

/-- That the server is there. -/
def answerHealth : HttpAnswer :=
  documentAnswer 200 [("status", .text "ok"), ("service", .text "stock-screener"), ("version", .text version)]

/-- The answer of a path that is asked for. A question for the head alone has no body. -/
def onGet (r : HttpRequest) (answer : HttpAnswer) : HttpAnswer :=
  if r.method = "GET" then answer
  else if r.method = "HEAD" then { answer with body := .empty }
  else { status := 405 }

/-- The answer of a path that a body is sent to. -/
def onPost (r : HttpRequest) (answer : HttpAnswer) : HttpAnswer :=
  if r.method = "POST" then answer else { status := 405 }

/-- The characters after the scheme of an address, if it begins with one. -/
def afterScheme? (cs : List Char) : Option (List Char) :=
  match cs.dropWhile (fun c => c.isAlphanum || ['+', '-', '.'].contains c) with
  | ':' :: '/' :: '/' :: rest => some rest
  | _ => none

/-- The path of a target, without the query and the fragment. In a whole address the path follows the authority. -/
def pathOf (target : String) : String :=
  let cs := target.toList.takeWhile fun c => c ≠ '?' && c ≠ '#'
  String.ofList (((afterScheme? cs).map (·.dropWhile (· ≠ '/'))).getD cs)

/-- The answer to a request. -/
def handle (s : Screener) (today : Date) (r : HttpRequest) : HttpAnswer :=
  if r.method = "OPTIONS" then { status := 200 }
  else
    match (pathOf r.target).splitOn "/" with
    | ["", "api", "health"] => onGet r answerHealth
    | ["", "api", "screening", "run"] => onPost r (withBody r Request.ofDraft (answerScreen s today))
    | ["", "api", "screening", "fields"] => onGet r (answerFields s)
    | ["", "api", "screening", "fields", name] =>
      if name.isEmpty then { status := 404 } else onGet r (answerField s name)
    | ["", "api", "screening", "validate"] => onPost r (withBody r conditionOf (answerValidation s))
    | ["", "api", "screening", "industries"] => onGet r (answerIndustries s)
    | _ => { status := 404 }

end Server

end EquityScreen
