/-!
# ColumnLabel.Template.Basic

The tree of a label template.  A template is a sequence of nodes: segments, which are literal text or a
placeholder `{{ name }}`, and blocks `{% if … %} … {% endif %}`.  A block holds its branches in the order
of the text; a branch body holds segments only, because blocks do not nest.

`source` gives back the text a node was read from.  It is the text that stands in a label when a
placeholder cannot be filled.
-/

namespace ColumnLabel

/-- Plain text, or a placeholder with the name it asks for and the text it was written as. -/
inductive Segment where
  | literal (text : String)
  | placeholder (name : String) (raw : String)
  deriving DecidableEq, Repr

/-- One way through a block: a condition and the body that stands for it.  An `else` has no condition. -/
structure Branch where
  condition : Option String
  body : List Segment
  deriving DecidableEq, Repr

/-- A part of a template. -/
inductive Node where
  | segment (segment : Segment)
  | block (branches : List Branch)
  deriving DecidableEq, Repr

/-- A template taken apart. -/
abbrev Template := List Node

/-! ## Source text -/

/-- The text of a segment as it was written. -/
def Segment.source : Segment → String
  | .literal text => text
  | .placeholder _ raw => raw

/-- The name a segment asks for, if it is a placeholder. -/
def Segment.name? : Segment → Option String
  | .literal _ => none
  | .placeholder name _ => some name

/-- The text of a run of segments as it was written. -/
def Segment.sources (segments : List Segment) : String :=
  String.join (segments.map Segment.source)

/-- The body of a branch with its placeholders still open. -/
def Branch.rawBody (branch : Branch) : String := Segment.sources branch.body

/-- An `else` is the branch that asks for nothing. -/
def Branch.isElse (branch : Branch) : Bool := branch.condition.isNone

@[simp] theorem Segment.source_literal (text : String) : (literal text).source = text := rfl

@[simp] theorem Segment.source_placeholder (name raw : String) : (placeholder name raw).source = raw := rfl

@[simp] theorem Segment.sources_nil : sources [] = "" := by simp [sources]

@[simp] theorem Segment.sources_cons (s : Segment) (ss : List Segment) :
    sources (s :: ss) = s.source ++ sources ss := by
  simp [sources, String.join_cons]

end ColumnLabel
