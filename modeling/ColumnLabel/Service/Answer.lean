import ColumnLabel.Label.Render
import ColumnLabel.Service.Request

/-!
# ColumnLabel.Service.Answer

The label service.  It has four resources: a health check, the list of the built-in variables, the label
of a column, and the friendly name of a column.

A label that cannot be made otherwise is its template, and that is a proper answer.  Only what happens
outside the making of the label fails the request.

Between the service and those who ask stands a `Gateway`.  It tells from a request what it asks for, refuses what asks
for nothing, and delivers the answers.
-/

namespace ColumnLabel.Service

/-- The answer to a request: a status with a body or without one, the problems of a body that was refused,
or nothing but the news that it failed.  What is answered to a body that holds half a character is left open. -/
inductive Answer where
  | ok (status : Nat) (body : Datum)
  | bare (status : Nat)
  | refused (problems : List Problem)
  | failed
  | leftOpen

/-- An object with some fields. -/
def fields (fs : List (String × Datum)) : Datum :=
  .record (.entries (fs.map fun (name, d) => (.text name, d)))

/-- An answer that only says what is the matter. -/
def detail (status : Nat) (text : String) : Answer := .ok status (fields [("detail", .text text)])

/-- The version of the service. -/
def version : String := "0.3.0"

/-- What the service notes when it starts and when it stops, each with its line in the program. -/
def lifeEntries : List (Nat × Entry) :=
  [(19, ⟨.info, Logger.service, "Starting Labelarr " ++ version⟩),
    (23, ⟨.info, Logger.service, "Labelarr stopped"⟩)]

/-! ## Resources -/

/-- How the service is. -/
def health : Datum :=
  fields [("status", .text "healthy"), ("version", .text version),
    ("variables", .int Registry.builtIn.size)]

/-- The built-in variables, in order and by category. -/
def catalogue : Datum :=
  let registry := Registry.builtIn
  let one (v : Variable) : Datum :=
    fields [("name", .text v.name), ("category", .text v.category.name),
      ("description", .text v.description)]
  let group (g : Category × List Variable) : String × Datum :=
    (g.1.name, .list (g.2.map fun v => .text v.name))
  fields [("variables", .list (registry.toList.map one)),
    ("by_category", fields (registry.byCategory.map group))]

/-- The label of a column, with all its variables and the placeholders left open in it. -/
def render (metricsByDefault : Bool) (request : RenderRequest) : Answer :=
  let (context, _) :=
    Registry.builtIn.build metricsByDefault Logger.contexts (.column request.column) request.input
  match context with
  | .error _ => .failed
  | .ok context =>
    let (label, _) := Label.renderWith Logger.labels (.text request.template) (.ok context)
    let unresolved := context.unresolved label
    match context.displayValues with
    | .error _ => .failed
    | .ok shown =>
      .ok 200 <| fields [("label", .text (Label.finish request.escape label)),
        ("variables", fields shown), ("unresolved", .list (unresolved.map .text))]

/-- The friendly name of a column; a blank name is refused. -/
def transform (name : String) : Answer :=
  if Text.isBlankText name.toList then detail 400 "Column name is required"
  else
    match Column.friendlyName name with
    | .ok label => .ok 200 (fields [("name", .text name), ("label", .text label)])
    | .error _ => .failed

/-! ## Requests -/

/-- What a request asks the service for.  It may ask for nothing that the service has, and is then answered without
it. -/
inductive Call where
  | health
  | catalogue
  | render (request : RenderRequest)
  | transform (name : String)
  | answered (answer : Answer)

/-- The answer of the service to a call. -/
def respond (metricsByDefault : Bool) : Call → Answer
  | .health => .ok 200 health
  | .catalogue => .ok 200 catalogue
  | .render request => render metricsByDefault request
  | .transform name => transform name
  | .answered answer => answer

/-- What stands between the service and those who ask. -/
structure Gateway where
  /-- What a request asks for: its method, the reference it is addressed by, and its body, if it has one. -/
  take (method reference : String) (body : Option ByteArray) : Call
  /-- An answer as it reaches those who asked. -/
  deliver (answer : Answer) : Answer

/-- The answer to a request. -/
def Gateway.answer (gateway : Gateway) (metricsByDefault : Bool) (method reference : String)
    (body : Option ByteArray) : Answer :=
  gateway.deliver (respond metricsByDefault (gateway.take method reference body))

end ColumnLabel.Service
