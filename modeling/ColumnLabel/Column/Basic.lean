import ColumnLabel.Datum.Written

/-!
# ColumnLabel.Column.Basic

The descriptor of the column that a label is made for.  It comes from configuration, so no field is sure
to be of the kind it should be; and what is handed over in place of a descriptor may be none.
-/

namespace ColumnLabel

/-- The descriptor of a column: its label as configured, the key of its cells in each row, the declared
type, and three flags. -/
structure Column where
  label : Datum
  key : Datum
  dataType : Datum := .none
  isNumeric : Datum := .bool false
  isMetric : Datum := .bool false
  isPercentMetric : Datum := .bool false

namespace Column

/-- The written form of a descriptor. -/
def written (c : Column) : Except Fault (List Char) := do
  let field (name : String) (d : Datum) : Except Fault (List Char) := do
    return name.toList ++ '=' :: (← d.written)
  let fields ← [("label", c.label), ("key", c.key), ("data_type", c.dataType),
    ("is_numeric", c.isNumeric), ("is_metric", c.isMetric),
    ("is_percent_metric", c.isPercentMetric)].mapM fun (name, d) => field name d
  return "ColumnMeta(".toList ++ commaSeparated fields ++ [')']

end Column

/-- What is handed over as a column: a descriptor, or data that is none. -/
inductive ColumnSource where
  | column (column : Column)
  | stray (datum : Datum)

namespace ColumnSource

/-- The descriptor; other data has no key to look cells up with. -/
def descriptor : ColumnSource → Except Fault Column
  | .column c => .ok c
  | .stray d => .error (.noPart d.kind "key")

/-- The written form of what was handed over. -/
def written : ColumnSource → Except Fault (List Char)
  | .column c => c.written
  | .stray d => d.written

end ColumnSource

end ColumnLabel
