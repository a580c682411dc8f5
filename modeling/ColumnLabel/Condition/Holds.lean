import ColumnLabel.Condition.Basic
import ColumnLabel.Context.Basic
import ColumnLabel.Journal.Entry
import ColumnLabel.Template.Basic

/-!
# ColumnLabel.Condition.Holds

Deciding conditions in a context, and choosing the branch of a block.

A name without a value is false, equals the empty text, starts with what the empty text starts with, and
lies on no side of a bound.  Where the value itself cannot answer, the condition is false and a warning
is given.
-/

namespace ColumnLabel

namespace Condition

/-- Is the datum the literal? -/
def isLiteral (literal : String) : Datum → Bool
  | .text s => s == literal
  | _ => false

/-- Does the datum start with the literal?  Only a text can. -/
def hasStart (literal : String) : Datum → Except Fault Bool
  | .text s => .ok (literal.toList.isPrefixOf s.toList)
  | .bytes _ => .error .bytesPrefix
  | d => .error (.noPart d.kind "startswith")

/-- Does the condition hold in the context? -/
def check (context : Context) : Condition → Except Fault Bool
  | .holds name =>
    match context.get? name with
    | none => .ok false
    | some value => value.isTruthy
  | .equals name literal => do
    let text ← ((context.get? name).getD .absent).asText
    return isLiteral literal text
  | .startsWith name literal => do
    let value := (context.get? name).getD .absent
    let text ← if ← value.isTruthy then value.asText else pure (.text "")
    hasStart literal text
  | .compares name side bound =>
    match context.get? name with
    | some (.number n) =>
      match n.compare? (.double bound) with
      | some o => .ok (side.accepts o)
      | none => .ok false
    | _ => .ok false

end Condition

/-- Does the condition written in a text hold in the context?  A fault counts as no, and is reported to
`logger`. -/
def Context.satisfies (context : Context) (logger : String) (condition : String) : Bool × List Entry :=
  match (Condition.read condition).check context with
  | .ok b => (b, [])
  | .error fault =>
    (false, [⟨.warning, logger,
      "Error evaluating condition '" ++ condition ++ "': " ++ fault.message⟩])

/-- The branch of a block that stands in the context: the first one that is an `else` or whose condition
holds.  The conditions after it are not looked at. -/
def Context.choose (context : Context) (logger : String) : List Branch → Option Branch × List Entry
  | [] => (none, [])
  | branch :: branches =>
    match branch.condition with
    | none => (some branch, [])
    | some condition =>
      let (holds, entries) := context.satisfies logger condition
      if holds then (some branch, entries)
      else
        let (chosen, more) := context.choose logger branches
        (chosen, entries ++ more)

end ColumnLabel
