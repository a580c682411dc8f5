import ColumnLabel.Column.Basic
import ColumnLabel.Column.Statistics
import ColumnLabel.Value.Basic

/-!
# ColumnLabel.Variable.Basic

Variables of a label.  A variable has a name, a category, a description and an extractor, which takes its
value from the facts about a column.  An extractor may have nothing to say, and then the label has no such
variable; or it may give up.
-/

namespace ColumnLabel

/-- What variables are about. -/
inductive Category where
  | identity | rows | statistics | metrics
  deriving DecidableEq, Repr

namespace Category

/-- The word for a category. -/
def name : Category → String
  | identity => "identity"
  | rows => "rows"
  | statistics => "statistics"
  | metrics => "metrics"

/-- All categories. -/
def all : List Category := [identity, rows, statistics, metrics]

/-- The category that a word stands for. -/
def ofName (word : String) : Except Fault Category :=
  match all.find? fun c => c.name = word with
  | some c => .ok c
  | none => .error (.unknownCategory word)

end Category

/-- What is known about a column when its label is made. -/
structure ColumnFacts where
  column : Column
  rows : List Datum
  statistics : Option Statistics
  metrics : List String
  includeMetrics : Bool

namespace ColumnFacts

/-- The record in a row; a row that is none counts as the empty record. -/
def recordOf : Option Datum → Record
  | some (.record r) => r
  | _ => .entries []

/-- The cell of the column in a row; a row that is no record has an empty one. -/
def cell (facts : ColumnFacts) (row : Datum) : Except Fault Datum :=
  match row with
  | .record r =>
    match facts.column.key.keyFault? with
    | some fault => .error fault
    | none => .ok ((r.get? facts.column.key).getD .none)
  | _ => .ok .none

/-- The value of the column in a row; without a row it is absent. -/
def valueIn (facts : ColumnFacts) : Option Datum → Except Fault Value
  | none => .ok .absent
  | some row => do Value.ofDatum (← facts.cell row)

end ColumnFacts

/-- Takes a datum from the facts about a column, if there is one to take. -/
abbrev Extractor := ColumnFacts → Except Fault (Option Datum)

/-- A variable of a label. -/
structure Variable where
  name : String
  category : Category
  description : String
  extract : Extractor

end ColumnLabel
