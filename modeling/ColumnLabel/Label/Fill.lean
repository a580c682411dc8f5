import ColumnLabel.Condition.Holds
import ColumnLabel.Template.Parse

/-!
# ColumnLabel.Label.Fill

The two steps from a template to a label.  `resolveBlocks` puts in place of each block the body of the
branch that stands in the context, with its placeholders still open.  `fill` puts in place of each
placeholder of a text what the context has for its name.

A placeholder without a value is left as it is, and so is one whose value cannot be shown because of its own
data; of the latter there is a warning.
-/

namespace ColumnLabel.Context

/-- The text that stands for a node once its blocks are resolved, and what was reported on the way. -/
def resolveNode (context : Context) (logger : String) : Node → String × List Entry
  | .segment s => (s.source, [])
  | .block branches =>
    let (chosen, entries) := context.choose logger branches
    ((chosen.map Branch.rawBody).getD "", entries)

/-- The text of a template with its blocks resolved, and what was reported on the way. -/
def resolveBlocks (context : Context) (logger : String) (template : String) : String × List Entry :=
  let nodes := (Template.parse template).map (context.resolveNode logger)
  (String.join (nodes.map (·.1)), nodes.flatMap (·.2))

/-- What stands for a segment in a label.  A value that cannot be shown because of its own data costs no more
than its placeholder; any other fault is one of the whole text. -/
def fillSegment (context : Context) : Segment → Except Fault Datum
  | .literal text => .ok (.text text)
  | .placeholder name raw =>
    match context.get? name with
    | none => .ok (.text raw)
    | some value =>
      match value.display with
      | .ok d => .ok d
      | .error fault => if fault.liesInData then .ok (.text raw) else .error fault

/-- The warning about a placeholder whose value cannot be shown. -/
def warnSegment? (context : Context) (logger : String) : Segment → Option Entry
  | .literal _ => none
  | .placeholder name _ =>
    match context.get? name with
    | none => none
    | some value =>
      match value.display with
      | .ok _ => none
      | .error fault =>
        some ⟨.warning, logger, "Could not format variable '" ++ name ++ "': " ++ fault.message⟩

/-- Joins the pieces of a label from the one with some index on; each of them has to be a text. -/
def joinPieces (index : Nat) : List Datum → Except Fault String
  | [] => .ok ""
  | .text s :: pieces => return s ++ (← joinPieces (index + 1) pieces)
  | d :: _ => .error (.pieceNotText index d.kind)

/-- The text with its placeholders filled. -/
def fill (context : Context) (text : String) : Except Fault String := do
  joinPieces 0 (← (Segment.read text).mapM context.fillSegment)

/-- The warnings about the placeholders of a text, in order, up to the first one that cannot be filled. -/
def fillWarnings (context : Context) (logger : String) (text : String) : List Entry :=
  ((Segment.read text).takeWhile fun s => (context.fillSegment s).isOk).filterMap
    (context.warnSegment? logger)

/-- The names of the placeholders of a text that the context has no value for, in order. -/
def unresolved (context : Context) (text : String) : List String :=
  (Segment.read text).filterMap fun s => s.name?.filter fun name => !context.contains name

end ColumnLabel.Context
