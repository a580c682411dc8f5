import ColumnLabel.Number.Reading
import ColumnLabel.Text.Search

/-!
# ColumnLabel.Condition.Basic

The conditions of a block, and how they are read.  A condition has one of four forms, which are tried in
this order:

1. `name == 'literal'`: the text of the value is the literal;
2. `name.startswith('literal')`: the text of the value starts with the literal;
3. `name > 10`, and likewise with `>=`, `<` and `<=`: the value is a number on that side of the bound;
4. anything else is a name, whose value has to count as true.

A literal stands between two equal quotes and is taken as it is; there are no escapes.  A bound may be
quoted.
-/

namespace ColumnLabel

open Text

/-- The sides of a bound. -/
inductive Comparison where
  | greater | greaterOrEqual | less | lessOrEqual
  deriving DecidableEq, Repr

namespace Comparison

/-- The operator of a side. -/
def operator : Comparison → List Char
  | greater => ['>']
  | greaterOrEqual => ['>', '=']
  | less => ['<']
  | lessOrEqual => ['<', '=']

/-- The sides in the order in which their operators are looked for: the longer operators first, so that
`>=` is not taken for `>`. -/
def order : List Comparison := [greaterOrEqual, lessOrEqual, greater, less]

/-- Does a number that is ordered so against the bound lie on this side? -/
def accepts : Comparison → Ordering → Bool
  | greater, o => o == .gt
  | greaterOrEqual, o => o != .lt
  | less, o => o == .lt
  | lessOrEqual, o => o != .gt

end Comparison

/-- A condition of a block. -/
inductive Condition where
  | equals (name literal : String)
  | startsWith (name literal : String)
  | compares (name : String) (side : Comparison) (bound : Double)
  | holds (name : String)
  deriving DecidableEq

namespace Condition

/-- The name whose value a condition asks for. -/
def name : Condition → String
  | equals name _ | startsWith name _ | compares name _ _ | holds name => name

/-! ## Reading -/

/-- Is the character a quote? -/
def isQuote (c : Char) : Bool := c = '\'' ∨ c = '"'

/-- The text between two equal quotes, with blanks around them. -/
def unquote? (cs : List Char) : Option (List Char) :=
  match trim cs with
  | quote :: rest =>
    if isQuote quote ∧ rest.getLast? = some quote then some rest.dropLast else none
  | [] => none

/-- A comparison with a literal. -/
def readEquals? (cs : List Char) : Option Condition := do
  let (name, rest) ← cutAtFirst? "==".toList cs
  let literal ← unquote? rest
  match trim name with
  | [] => none
  | name => some (.equals (String.ofList name) (String.ofList literal))

/-- A question for the start of a text. -/
def readStartsWith? (cs : List Char) : Option Condition := do
  guard (cs.getLast? = some ')')
  let (name, rest) ← cutAtFirst? ".startswith(".toList cs
  let literal ← unquote? rest.dropLast
  match trim name with
  | [] => none
  | name => some (.startsWith (String.ofList name) (String.ofList literal))

/-- The bound of a comparison: plain or in quotes. -/
def readBound? (cs : List Char) : Option Double := do
  let text ← match trim cs with
    | [] => none
    | c :: cs => if isQuote c then unquote? (c :: cs) else some (c :: cs)
  Double.read? text

/-- A comparison of numbers, by the first of the operators that occurs. -/
def readCompares? (cs : List Char) : Option Condition := do
  let (side, name, rest) ← Comparison.order.findSome? fun side =>
    (cutAtFirst? side.operator cs).map fun cut => (side, cut)
  match trim name with
  | [] => none
  | name => (readBound? rest).map (.compares (String.ofList name) side)

/-- The condition that a text stands for. -/
def read (text : String) : Condition :=
  let cs := trim text.toList
  (readEquals? cs <|> readStartsWith? cs <|> readCompares? cs).getD (.holds (String.ofList cs))

end Condition

end ColumnLabel
