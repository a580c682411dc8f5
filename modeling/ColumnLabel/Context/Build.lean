import ColumnLabel.Context.Basic
import ColumnLabel.Journal.Entry
import ColumnLabel.Variable.Registry

/-!
# ColumnLabel.Context.Build

Building the context of a column.  First come the variables of a registry, in its order, as far as they
have something to say; then the auxiliary values, as far as their names are not reserved.

An extractor that gives up costs its own variable and a warning.  Everything else that cannot be done is
a fault of the whole context.
-/

namespace ColumnLabel

/-- What is handed over beside the column: the rows of the result, values computed elsewhere, the active
metrics, and whether the metrics are shown; where that is not said, a setting decides. -/
structure BuildInput where
  rows : Datum := .none
  auxiliary : Datum := .none
  metrics : Datum := .none
  includeMetrics : Option Bool := none

/-- The items of a datum; of nothing there are none. -/
def Datum.itemsOrNone (d : Datum) : Except Fault (List Datum) :=
  if d.isTruthy then d.items else .ok []

/-- The facts about a column. -/
def ColumnFacts.gather (metricsByDefault : Bool) (source : ColumnSource) (input : BuildInput) :
    Except Fault ColumnFacts := do
  let rows ← input.rows.itemsOrNone
  let column ← source.descriptor
  let statistics ← Statistics.ofRows rows column.key
  let metrics ← (← input.metrics.itemsOrNone).mapM fun d => return String.ofList (← d.plain)
  let includeMetrics := input.includeMetrics.getD metricsByDefault
  return { column, rows, statistics, metrics, includeMetrics }

namespace Registry

/-- What the variables say about a column, in order, and a warning for each one that gives up. -/
def extractAll (logger : String) (facts : ColumnFacts) :
    List Variable → List (String × Datum) × List Entry
  | [] => ([], [])
  | v :: vs =>
    let (values, entries) := extractAll logger facts vs
    match v.extract facts with
    | .ok (some d) => ((v.name, d) :: values, entries)
    | .ok none => (values, entries)
    | .error fault =>
      (values, ⟨.warning, logger, "Failed to extract variable '" ++ v.name ++ "': " ++ fault.message⟩ ::
        entries)

/-- The auxiliary values whose names are not reserved, and a note on each of the others.  The first one
that cannot be named or wrapped is a fault; the notes up to it are kept. -/
def auxiliaryValues (registry : Registry) (logger : String) :
    List (Datum × Datum) → Except Fault (List (String × Value)) × List Entry
  | [] => (.ok [], [])
  | (name, datum) :: rest =>
    match name.plain with
    | .error fault => (.error fault, [])
    | .ok name =>
      let name := String.ofList name
      if registry.isReserved name then
        let (values, entries) := auxiliaryValues registry logger rest
        (values, ⟨.debug, logger, "Ignoring auxiliary value '" ++ name ++ "': reserved variable name"⟩ ::
          entries)
      else
        match Value.ofDatum datum with
        | .error fault => (.error fault, [])
        | .ok value =>
          let (values, entries) := auxiliaryValues registry logger rest
          (values.map ((name, value) :: ·), entries)

/-- The entries of the auxiliary values; other data has none. -/
def auxiliaryEntries (d : Datum) : Except Fault (List (Datum × Datum)) :=
  if !d.isTruthy then .ok []
  else
    match d with
    | .record r => .ok r.toList
    | d => .error (.noPart d.kind "items")

end Registry

/-- Wraps named data, in order. -/
def wrapAll : List (String × Datum) → Except Fault (List (String × Value))
  | [] => .ok []
  | (name, d) :: rest => return (name, ← Value.ofDatum d) :: (← wrapAll rest)

/-- The context with some named values, given one after the other. -/
def Context.ofList (values : List (String × Value)) : Context :=
  values.foldl (fun c (name, value) => c.set name value) .empty

/-- The context of a column, and the notes on what was left out of it. -/
def Registry.build (registry : Registry) (metricsByDefault : Bool) (logger : String)
    (source : ColumnSource) (input : BuildInput) : Except Fault Context × List Entry :=
  match ColumnFacts.gather metricsByDefault source input with
  | .error fault => (.error fault, [])
  | .ok facts =>
    let (extracted, warnings) := extractAll logger facts registry.toList
    match auxiliaryEntries input.auxiliary with
    | .error fault => (.error fault, warnings)
    | .ok auxiliary =>
      let (values, notes) := registry.auxiliaryValues logger auxiliary
      let context := do
        let values ← values
        let own ← wrapAll extracted
        return Context.ofList (own ++ values)
      (context, warnings ++ notes)

end ColumnLabel
