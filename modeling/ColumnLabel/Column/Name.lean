import ColumnLabel.Fault
import ColumnLabel.Text.Character

/-!
# ColumnLabel.Column.Name

Friendly names of columns.  A column is named by the identifier of a field, or by an aggregate function
around one, as in `SUM(sell_in)`.  Known fields have a label and known functions a word in front of it;
an unknown field is its own label.

The function may be written in any case.  The field is everything between the first parenthesis and the
last; it holds no line break, but one line break may follow the last parenthesis.
-/

namespace ColumnLabel.Column

open Text

/-- The labels of the known fields. -/
def fieldLabels : List (String × String) :=
  [("jefe_marca", "Jefe Marca"), ("sell_in", "Sell In"), ("anio_id", "Año"), ("mes_id", "Mes"),
    ("fecha", "Fecha")]

/-- The words for the aggregate functions. -/
def aggregateWords : List (String × String) :=
  [("SUM", "Total"), ("COUNT", "Cantidad"), ("AVG", "Promedio"), ("MAX", "Máximo"), ("MIN", "Mínimo")]

/-- The label of a field: of an unknown one itself. -/
def fieldLabel (field : String) : String := (fieldLabels.lookup field).getD field

/-- The part of a text that counts as `word` when case is ignored, at its start, and what follows. -/
def takeFolded? : (word : List Char) → List Char → Option (List Char × List Char)
  | [], cs => some ([], cs)
  | _ :: _, [] => none
  | w :: word, c :: cs =>
    if foldChar c = foldChar w then (takeFolded? word cs).map fun (taken, rest) => (c :: taken, rest)
    else none

/-- The text between a parenthesis that was opened and the last one, which ends the whole text but for
one line break. -/
def untilLastParenthesis? (cs : List Char) : Option (List Char) :=
  let cs := if cs.getLast? = some '\n' then cs.dropLast else cs
  if cs.getLast? = some ')' ∧ '\n' ∉ cs then some cs.dropLast else none

/-- The function and the field of an aggregate, for one of the known functions. -/
def splitBy? (function : String) (cs : List Char) : Option (List Char × List Char) :=
  match takeFolded? function.toList cs with
  | some (written, '(' :: rest) => (untilLastParenthesis? rest).map fun field => (upper written, field)
  | _ => none

/-- The function, in capitals, and the field of an aggregate. -/
def splitAggregate? (name : String) : Option (String × String) :=
  (aggregateWords.findSome? fun (function, _) => splitBy? function name.toList).map
    fun (function, field) => (String.ofList function, String.ofList field)

/-- The friendly name of a column.  There is none for a function whose capitals are not a known
function's. -/
def friendlyName (name : String) : Except Fault String :=
  match splitAggregate? name with
  | none => .ok (fieldLabel name)
  | some (function, field) =>
    match aggregateWords.lookup function with
    | some word => .ok (word ++ " " ++ fieldLabel field)
    | none => .error (.unknownAggregate function)

end ColumnLabel.Column
