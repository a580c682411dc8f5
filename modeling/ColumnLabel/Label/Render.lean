import ColumnLabel.Context.Build
import ColumnLabel.Label.Fill
import ColumnLabel.Text.Quoted
import ColumnLabel.Variable.BuiltIn

/-!
# ColumnLabel.Label.Render

Labels from templates.  `render` fills a template from a context; `renderColumn` builds the context of a
column first; `generate` makes the result ready for display.

A label is always made, if only from the template itself: when something goes wrong, the template is the
label, and an error says why.  Without a template the label is empty, and nothing is reported.
-/

namespace ColumnLabel.Label

/-- The template that a datum is; there is none in an empty text or in other data. -/
def template? : Datum → Option String
  | .text s => if s.isEmpty then none else some s
  | _ => none

/-- The error about a template that could not be rendered. -/
def renderError (logger template : String) (fault : Fault) : Entry :=
  ⟨.error, logger, "Failed to render template '" ++ template ++ "': " ++ fault.message⟩

/-- The label that a context makes of a template, and what was reported on the way. -/
def renderIn (logger template : String) (context : Context) : String × List Entry :=
  let (branched, entries) := context.resolveBlocks logger template
  let entries := entries ++ context.fillWarnings logger branched
  match context.fill branched with
  | .ok label =>
    (label, entries ++ [⟨.debug, logger, "Rendered '" ++ template ++ "' -> '" ++ label ++ "'"⟩])
  | .error fault => (template, entries ++ [renderError logger template fault])

/-- The label that a context makes of what is handed over as a template; there may be no context. -/
def renderWith (logger : String) (template : Datum) (context : Except Fault Context) :
    String × List Entry :=
  match template? template with
  | none => ("", [])
  | some template =>
    match context with
    | .ok context => renderIn logger template context
    | .error fault => (template, [renderError logger template fault])

/-- The label that the values of a datum make of a template. -/
def render (logger : String) (template values : Datum) : String × List Entry :=
  renderWith logger template (Context.ofDatum values)

/-- The label of a column.  When its context cannot be built, the error shows what was handed over as a
column; that alone can be a fault. -/
def renderColumn (registry : Registry) (metricsByDefault : Bool) (logger : String) (template : Datum)
    (source : ColumnSource) (input : BuildInput) : Except Fault (String × List Entry) :=
  match template? template with
  | none => .ok ("", [])
  | some template =>
    let (context, entries) := registry.build metricsByDefault logger source input
    match context with
    | .ok context =>
      let (label, more) := renderIn logger template context
      .ok (label, entries ++ more)
    | .error fault => do
      let column ← source.written
      return (template, entries ++ [⟨.error, logger,
        "Failed to build context for column " ++ String.ofList column ++ ": " ++ fault.message⟩])

/-- A label ready for display: trimmed, and escaped if it is to stand in HTML. -/
def finish (escape : Bool) (label : String) : String :=
  let label := Text.trimmed label
  if escape then Text.escapeHtml label else label

/-- The label of a column, ready for display. -/
def generate (registry : Registry) (metricsByDefault : Bool) (logger : String) (template : Datum)
    (source : ColumnSource) (input : BuildInput) (escape : Bool) : Except Fault (String × List Entry) :=
  return (← renderColumn registry metricsByDefault logger template source input).map (finish escape) id

end ColumnLabel.Label
