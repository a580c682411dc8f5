/-!
# ColumnLabel.Datum.Kind

The kinds of raw data, and the variants of the values that labels show.  `name` is the word by which a
message calls a kind.
-/

namespace ColumnLabel

/-- The variants of a value; the set is closed. -/
inductive Variant where
  | absent | bool | number | text | record | list
  deriving DecidableEq, Repr

/-- The word for a variant. -/
def Variant.name : Variant → String
  | absent => "Absent"
  | bool => "BoolValue"
  | number => "NumberValue"
  | text => "TextValue"
  | record => "RecordValue"
  | list => "ListValue"

/-- The kinds of raw data. -/
inductive Kind where
  | none | bool | int | double | decimal | text | bytes | date | time | dateTime
  | list | tuple | set | range | record
  | value (variant : Variant)
  deriving DecidableEq, Repr

/-- The word for a kind. -/
def Kind.name : Kind → String
  | none => "NoneType"
  | bool => "bool"
  | int => "int"
  | double => "float"
  | decimal => "decimal.Decimal"
  | text => "str"
  | bytes => "bytes"
  | date => "datetime.date"
  | time => "datetime.time"
  | dateTime => "datetime.datetime"
  | list => "list"
  | tuple => "tuple"
  | set => "set"
  | range => "range"
  | record => "dict"
  | value variant => variant.name

end ColumnLabel
