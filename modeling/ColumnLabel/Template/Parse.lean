import ColumnLabel.Template.Placeholder
import ColumnLabel.Template.Tag

/-!
# ColumnLabel.Template.Parse

From tags to blocks.  A block starts with an `{% if %}` and ends with the first `{% endif %}` after it;
an `{% if %}` without one is text.  Outside a block every other tag is text.  Inside a block an
`{% elif %}` starts a new branch, and so does the first `{% else %}`; a later `{% else %}` and a nested
`{% if %}` are text of the body they stand in.

Bodies are trimmed before their placeholders are read.
-/

namespace ColumnLabel.Template

open Text

/-- A branch from its condition and the text of its body. -/
def branch (condition : Option String) (body : List Char) : Branch :=
  { condition, body := Segment.readChars (trim body) }

/-- The nodes of a text without blocks. -/
def segments (cs : List Char) : List Node := (Segment.readChars cs).map .segment

mutual

/-- The text up to the first block, and the nodes from that block on. -/
def outside : List Token → List Char × List Node
  | [] => ([], [])
  | .tag (.opening condition) raw :: tokens =>
    match inside false tokens with
    | some (body, branches, text, nodes) =>
      ([], .block (branch (some condition) body :: branches) :: (segments text ++ nodes))
    | none => (raw ++ Token.sources tokens, [])
  | token :: tokens =>
    let (text, nodes) := outside tokens
    (token.source ++ text, nodes)

/-- Within a block: the rest of the current body, the branches after it, and what `outside` finds after
the block; nothing if the block is never closed.  `hasElse` says that an `{% else %}` was met. -/
def inside (hasElse : Bool) : List Token → Option (List Char × List Branch × List Char × List Node)
  | [] => none
  | .tag .closing _ :: tokens => some ([], [], outside tokens)
  | .tag (.alternative condition) _ :: tokens =>
    (inside hasElse tokens).map fun (body, branches, after) =>
      ([], branch (some condition) body :: branches, after)
  | .tag .otherwise raw :: tokens =>
    if hasElse then
      (inside true tokens).map fun (body, branches, after) => (raw ++ body, branches, after)
    else
      (inside true tokens).map fun (body, branches, after) => ([], branch none body :: branches, after)
  | token :: tokens =>
    (inside hasElse tokens).map fun (body, branches, after) => (token.source ++ body, branches, after)

end

/-- The template that a list of tokens makes up. -/
def ofTokens (tokens : List Token) : Template :=
  let (text, nodes) := outside tokens
  segments text ++ nodes

/-- The template written in a text.  Every text is a template. -/
def parse (text : String) : Template := ofTokens (Token.lex text.toList)

end ColumnLabel.Template
