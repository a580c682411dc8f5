import ColumnLabel.Json.Reader
import ColumnLabel.Service.Address
import ColumnLabel.Service.Answer
import ColumnLabel.Service.Refusal
import ColumnLabel.Text.Character
import ColumnLabel.Text.Encoding

/-!
# ColumnLabel.Service.Http

The gateway of the label service.  A request leads to a resource by its path, and is taken if its method is that of the
resource.  Where the resource needs a body, that has to be JSON which passes the checks.

A body that does not is refused, but a refusal may be unable to show the piece that it is about, and then it fails.
Bodies with half a character are left out: no text has one.
-/

namespace ColumnLabel.Service

/-! ## Bodies -/

/-- The refusal of a body for some problems. -/
def refuse (problems : List Problem) : Answer :=
  if problems.all fun p => isShowable p.datum then .refused problems else .failed

/-- The answer to a body that cannot be read at all. -/
def unreadable : Answer := detail 400 "There was an error parsing the body"

/-- What the body of a request asks for; an empty body is none. -/
def readBody (check : Datum → Checked α) (call : α → Call) (body : Option ByteArray) : Call :=
  match body.filter (!·.isEmpty) with
  | none => .answered (refuse [⟨[.field "body"], .missing, .none⟩])
  | some bytes =>
    match Text.ofBytes bytes with
    | .error .malformed => .answered unreadable
    | .error .loneHalf => .answered .leftOpen
    | .ok text =>
      match Json.read text with
      | .error .invalid => .answered (refuse [⟨[.field "body"], .notJson, .none⟩])
      | .error .integerTooLong | .error .tooDeep => .answered unreadable
      | .error .loneHalf => .answered .leftOpen
      | .ok datum =>
        match Checked.within (.field "body") (check datum) with
        | .ok a => call a
        | .error problems => .answered (refuse problems)

/-! ## Resources -/

/-- A resource: the method it is asked with, and what a body asks of it. -/
structure Resource where
  method : String
  call : Option ByteArray → Call

/-- The pages that describe the service.  They can be read and nothing else; what they say is not kept
here. -/
def pages : List String := ["/docs", "/docs/oauth2-redirect", "/redoc", "/openapi.json"]

/-- The resources by their paths. -/
def resources : List (String × Resource) :=
  [("/health", ⟨"GET", fun _ => .health⟩),
    ("/api/v1/labels/variables", ⟨"GET", fun _ => .catalogue⟩),
    ("/api/v1/labels/render", ⟨"POST", readBody (object renderRequest) .render⟩),
    ("/api/v1/labels/transform", ⟨"POST", readBody (object transformRequest) .transform⟩)] ++
  pages.map fun page => (page, ⟨"GET", fun _ => .answered (.ok 200 .none)⟩)

/-! ## Requests -/

/-- An answer without its body. -/
def Answer.withoutBody : Answer → Answer
  | .ok status _ => .bare status
  | answer => answer

/-- What a method in capitals asks of what a reference leads to.  Whoever asks for the head of an answer gets no body,
and no resource has that method. -/
def call (method reference : String) (body : Option ByteArray) : Call :=
  let answered (answer : Answer) : Call := .answered (if method = "HEAD" then answer.withoutBody else answer)
  match resolve? (fun path => resources.lookup path) reference with
  | none => answered (detail 404 "Not Found")
  | some resource =>
    if method = resource.method then resource.call body else answered (detail 405 "Method Not Allowed")

/-- The gateway: methods may be in any case, and answers are delivered as they are. -/
def Gateway.http : Gateway where
  take method reference body := call (String.ofList (Text.upper method.toList)) reference body
  deliver answer := answer

end ColumnLabel.Service
