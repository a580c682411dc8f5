import ColumnLabel.Column.Basic
import ColumnLabel.Context.Build

/-!
# ColumnLabel.Service.Request

The requests of the label service, and how they are checked.  A body that is not as it should be is
refused with a list of problems, each with the place in the body where it is and what it is.  All fields
are checked, in their order, so that one answer names every problem.

Texts are taken from texts only.  A flag may be a truth value, a zero or a one, or one of twelve words in
any case.
-/

namespace ColumnLabel.Service

/-- A step from a body into it: a field of an object, or an item of a list. -/
inductive Step where
  | field (name : String)
  | item (index : Nat)
  deriving DecidableEq, Repr

/-- What can be wrong with a piece of a body. -/
inductive ProblemKind where
  | missing | notJson | notObject | notRecord | notList | notText | textTooShort | notFlag | flagUnclear
  deriving DecidableEq, Repr

/-- The word for a problem. -/
def ProblemKind.name : ProblemKind → String
  | missing => "missing"
  | notJson => "json_invalid"
  | notObject => "model_attributes_type"
  | notRecord => "dict_type"
  | notList => "list_type"
  | notText => "string_type"
  | textTooShort => "string_too_short"
  | notFlag => "bool_type"
  | flagUnclear => "bool_parsing"

/-- A problem: the way to it from the body, what it is, and the piece of the body that has it.  Of a
field that is missing, that is the object without it. -/
structure Problem where
  place : List Step
  kind : ProblemKind
  datum : Datum

/-- What checking gives: the thing checked, or the problems found. -/
abbrev Checked (α : Type) := Except (List Problem) α

namespace Checked

/-- A problem of a datum, at the place where one stands. -/
def problem (kind : ProblemKind) (datum : Datum) : Checked α := .error [⟨[], kind, datum⟩]

/-- The same problems, one step further out. -/
def within (step : Step) : Checked α → Checked α
  | .ok a => .ok a
  | .error problems => .error (problems.map fun p => { p with place := step :: p.place })

/-- Two things checked side by side; the problems of both are kept. -/
def both (f : Checked (α → β)) (a : Checked α) : Checked β :=
  match f, a with
  | .ok f, .ok a => .ok (f a)
  | .ok _, .error problems | .error problems, .ok _ => .error problems
  | .error first, .error second => .error (first ++ second)

/-- The items of a list, each checked at its place. -/
def items (check : Datum → Checked α) (index : Nat) : List Datum → Checked (List α)
  | [] => .ok []
  | d :: ds =>
    both ((within (.item index) (check d)).map List.cons) (items check (index + 1) ds)

end Checked

open Checked

/-! ## Kinds of fields -/

/-- A text. -/
def text : Datum → Checked String
  | .text s => .ok s
  | d => problem .notText d

/-- A text that is not empty. -/
def nonemptyText : Datum → Checked String
  | .text s => if s.isEmpty then problem .textTooShort (.text s) else .ok s
  | d => problem .notText d

/-- An object as raw data. -/
def record : Datum → Checked Datum
  | .record r => .ok (.record r)
  | d => problem .notRecord d

/-- A list, each item of it checked. -/
def list (check : Datum → Checked α) : Datum → Checked (List α)
  | .list ds => items check 0 ds
  | d => problem .notList d

/-- A field that may be null. -/
def nullable (check : Datum → Checked α) : Datum → Checked (Option α)
  | .none => .ok none
  | d => (check d).map some

/-- The words that stand for a set flag. -/
def setWords : List String := ["1", "true", "t", "yes", "y", "on"]

/-- The words that stand for a flag that is not set. -/
def unsetWords : List String := ["0", "false", "f", "no", "n", "off"]

/-- The flag that a word stands for, in any case. -/
def flagOfWord? (s : String) : Option Bool :=
  let word := s.toList.map Char.toLower
  if setWords.any fun w => w.toList = word then some true
  else if unsetWords.any fun w => w.toList = word then some false
  else none

/-- The flag that a whole number stands for. -/
def flagOfInt? (i : Int) : Option Bool :=
  if i = 0 then some false else if i = 1 then some true else none

/-- Is an integer one of the signed integers of 64 bits? -/
def isSigned64 (i : Int) : Bool := -twoPow 63 ≤ i && i < twoPow 63

/-- A flag.  A word or a whole number that stands for none is unclear.  A number beyond 64 bits is no flag
at all, and neither is a double at either end of them. -/
def flag (d : Datum) : Checked Bool :=
  let orUnclear (flag? : Option Bool) : Checked Bool :=
    match flag? with
    | some b => .ok b
    | none => problem .flagUnclear d
  match d with
  | .bool b => .ok b
  | .text s => orUnclear (flagOfWord? s)
  | .int i => if isSigned64 i then orUnclear (flagOfInt? i) else problem .notFlag d
  | .double x =>
    match x.toInt? with
    | some i => if i.natAbs < twoPow 63 then orUnclear (flagOfInt? i) else problem .notFlag d
    | none => problem .notFlag d
  | _ => problem .notFlag d

/-! ## Fields of objects -/

/-- A field that has to be there. -/
def required (r : Record) (name : String) (check : Datum → Checked α) : Checked α :=
  within (.field name) <|
    match r.get? (.text name) with
    | some d => check d
    | none => problem .missing (.record r)

/-- A field with a value for when it is not there. -/
def withDefault (r : Record) (name : String) (default : α) (check : Datum → Checked α) : Checked α :=
  within (.field name) <|
    match r.get? (.text name) with
    | some d => check d
    | none => .ok default

/-- An object, checked by its fields. -/
def object (check : Record → Checked α) : Datum → Checked α
  | .record r => check r
  | d => problem .notObject d

/-! ## Requests -/

/-- The column of a request; without a key, its label is the key. -/
def columnPayload (r : Record) : Checked Column :=
  let make (label : String) (key dataType : Option String) (isNumeric isMetric isPercentMetric : Bool) :
      Column :=
    let key := (key.filter (!·.isEmpty)).getD label
    { label := .text label
      key := .text key
      dataType := (dataType.map Datum.text).getD .none
      isNumeric := .bool isNumeric
      isMetric := .bool isMetric
      isPercentMetric := .bool isPercentMetric }
  both (both (both (both (both ((required r "label" nonemptyText).map make)
    (withDefault r "key" none (nullable text)))
    (withDefault r "data_type" none (nullable text)))
    (withDefault r "is_numeric" false flag))
    (withDefault r "is_metric" false flag))
    (withDefault r "is_percent_metric" false flag)

/-- A request for the label of a column. -/
structure RenderRequest where
  template : String
  column : Column
  input : BuildInput
  escape : Bool

/-- A request for the label of a column, from the object in the body. -/
def renderRequest (r : Record) : Checked RenderRequest :=
  let make (template : String) (column : Column) (rows : List Datum) (auxiliary : Option Datum)
      (metrics : Option (List String)) (includeMetrics : Option Bool) (escape : Bool) : RenderRequest :=
    { template, column, escape
      input :=
        { rows := .list rows
          auxiliary := auxiliary.getD .none
          metrics := (metrics.map fun ms => Datum.list (ms.map .text)).getD .none
          includeMetrics } }
  both (both (both (both (both (both ((required r "template" text).map make)
    (required r "column" (object columnPayload)))
    (withDefault r "rows" [] (list record)))
    (withDefault r "aux_values" none (nullable record)))
    (withDefault r "metrics" none (nullable (list text))))
    (withDefault r "include_metrics" none (nullable flag)))
    (withDefault r "escape" false flag)

/-- A request for the friendly name of a column, from the object in the body. -/
def transformRequest (r : Record) : Checked String := required r "name" text

end ColumnLabel.Service
