import ColumnLabel.Column.Name
import ColumnLabel.Variable.Registry

/-!
# ColumnLabel.Variable.BuiltIn

The variables that every label has at hand.

* Identity: what the descriptor of the column says.  These are always there, except that a label which is
  no text has no friendly name.
* Rows: how many there are, and the first and the last of them.
* Statistics: only where the column has a numeric cell, so that a missing sum does not read as zero.
* Metrics: only where they are asked for.
-/

namespace ColumnLabel

namespace Variable

/-- A variable whose value is always there. -/
def total (name : String) (category : Category) (description : String)
    (value : ColumnFacts → Except Fault Value) : Variable where
  name := name
  category := category
  description := description
  extract := fun facts => return some (.value (← value facts))

/-- A variable whose value may not be there. -/
def optional (name : String) (category : Category) (description : String)
    (value? : ColumnFacts → Option Value) : Variable where
  name := name
  category := category
  description := description
  extract := fun facts => .ok ((value? facts).map .value)

/-! ## Identity -/

/-- A field of the descriptor as a text variable: a text as it is, other data unchecked. -/
def textField : Datum → Value
  | .text s => .text s
  | d => .unchecked d

/-- The friendly name of a label, which has to be a text. -/
def nameOfLabel : Datum → Except Fault Value
  | .text s => return .text (← Column.friendlyName s)
  | .bytes _ => .error .nameIsBytes
  | d => .error (.nameNotText d.kind)

/-- The variables about the descriptor of the column. -/
def identity : List Variable :=
  [total "column_name" .identity "Friendly column label (e.g., 'SUM(sell_in)' -> 'Total Sell In')"
      fun facts => nameOfLabel facts.column.label,
    total "original_label" .identity "Column label exactly as configured"
      fun facts => .ok (textField facts.column.label),
    total "key" .identity "Internal column key used to read row cells"
      fun facts => .ok (textField facts.column.key),
    total "data_type" .identity "Declared column type (e.g., 'NUMERIC', 'STRING'), empty if unknown"
      fun facts => Value.ofDatum facts.column.dataType,
    total "is_metric" .identity "Whether the column is a metric"
      fun facts => .ok (.bool facts.column.isMetric.isTruthy),
    total "is_percent_metric" .identity "Whether the column is a percent-of-total metric"
      fun facts => .ok (.bool facts.column.isPercentMetric.isTruthy),
    total "is_numeric" .identity "Whether the column is declared numeric"
      fun facts => .ok (.bool facts.column.isNumeric.isTruthy)]

/-! ## Rows -/

/-- The variables about the rows. -/
def rows : List Variable :=
  [total "row_count" .rows "Number of rows in the result set"
      fun facts => .ok (.number (.int facts.rows.length)),
    total "first_row" .rows "First row as a record (empty record when there are no rows)"
      fun facts => .ok (.record (ColumnFacts.recordOf facts.rows.head?)),
    total "last_row" .rows "Last row as a record (empty record when there are no rows)"
      fun facts => .ok (.record (ColumnFacts.recordOf facts.rows.getLast?)),
    total "first_value" .rows "This column's value in the first row"
      fun facts => facts.valueIn facts.rows.head?,
    total "last_value" .rows "This column's value in the last row"
      fun facts => facts.valueIn facts.rows.getLast?]

/-! ## Statistics -/

/-- The variables about the numeric cells. -/
def statistics : List Variable :=
  [optional "sum" .statistics "Sum of the column's numeric values"
      fun facts => facts.statistics.map fun s => .number s.sum,
    optional "avg" .statistics "Average of the column's numeric values"
      fun facts => facts.statistics.map fun s => .number (.double s.mean),
    optional "min" .statistics "Smallest numeric value in the column"
      fun facts => facts.statistics.map fun s => .number s.least,
    optional "max" .statistics "Largest numeric value in the column"
      fun facts => facts.statistics.map fun s => .number s.greatest,
    optional "count" .statistics "Number of non-null numeric values in the column"
      fun facts => facts.statistics.map fun s => .number (.int s.count)]

/-! ## Metrics -/

/-- The variables about the active metrics. -/
def metrics : List Variable :=
  [optional "metrics" .metrics "Active metric identifiers"
      fun facts =>
        if facts.includeMetrics then some (.list (facts.metrics.map .text)) else none,
    optional "metric_count" .metrics "Number of active metrics"
      fun facts =>
        if facts.includeMetrics then some (.number (.int facts.metrics.length)) else none]

/-- All built-in variables, in the order in which a context has them. -/
def builtIn : List Variable := identity ++ rows ++ statistics ++ metrics

end Variable

/-- The registry of the built-in variables. -/
def Registry.builtIn : Registry := ⟨Variable.builtIn, by decide⟩

end ColumnLabel
