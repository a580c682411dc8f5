import ColumnLabel.Datum.Written

/-!
# ColumnLabel.Json.Writer

Compact JSON text of raw data: no blanks, `,` and `:` alone between the parts, and every character as
itself but for quotes, backslashes and the controls of ASCII.

Texts, numbers, truth values, lists, tuples and records have a JSON form of their own; a moment is the text
of its ISO 8601 notation, and all else the text of its plain form.  The keys of a record have to be texts,
numbers, truth values or `null`, and are written as texts.  A container that holds itself has no JSON
text, and neither has data that is nested deeper than there is room for.
-/

namespace ColumnLabel.Json

/-- A character as it stands in a JSON text. -/
def escapeChar (c : Char) : List Char :=
  if c = '"' then ['\\', '"']
  else if c = '\\' then ['\\', '\\']
  else if c = '\n' then ['\\', 'n']
  else if c = '\r' then ['\\', 'r']
  else if c = '\t' then ['\\', 't']
  else if c.toNat = 8 then ['\\', 'b']
  else if c.toNat = 12 then ['\\', 'f']
  else if c.toNat < 0x20 then '\\' :: 'u' :: Text.hexDigits 4 c.toNat
  else [c]

/-- A text in quotes. -/
def quote (cs : List Char) : List Char := '"' :: (cs.flatMap escapeChar ++ ['"'])

/-- The number of a double, or the word for what is none. -/
def ofDouble : Double → List Char
  | .nan => "NaN".toList
  | .infinite false => "Infinity".toList
  | .infinite true => "-Infinity".toList
  | x => x.write

/-- The word of a truth value. -/
def ofBool (b : Bool) : List Char := (if b then "true" else "false").toList

/-- The text of a key. -/
def ofKey : Datum → Except Fault (List Char)
  | .text s => .ok s.toList
  | .double x => .ok (ofDouble x)
  | .bool b => .ok (ofBool b)
  | .none => .ok "null".toList
  | .int i => writeInt i
  | d => .error (.unwritableKey d.kind)

/-- Pieces with a comma between them. -/
def commas (pieces : List (List Char)) : List Char := [','].intercalate pieces

/-- The text of a list with the texts of its items. -/
def bracketed (pieces : List (List Char)) : List Char := '[' :: (commas pieces ++ [']'])

/-- What one does who is writing JSON. -/
def encodingJson : String := "encoding a JSON object"

mutual

/-- The JSON text of a datum, with some room to go deeper. -/
def writeWithin (room : Nat) : Datum → Except Fault (List Char)
  | .none => .ok "null".toList
  | .bool b => .ok (ofBool b)
  | .int i => writeInt i
  | .double x => .ok (ofDouble x)
  | .text s => .ok (quote s.toList)
  | .date d => .ok (quote d.notate)
  | .time c => .ok (quote c.notate)
  | .dateTime t => .ok (quote (t.notate 'T'))
  | .list items | .tuple items => do
    let room ← takeRoom 1 room encodingJson
    return bracketed (← writeItems room items)
  | .record r => writeRecordWithin room r
  | .endless => .error .circular
  | d => return quote (← d.plainWithin room)

/-- The JSON texts of some data. -/
def writeItems (room : Nat) : List Datum → Except Fault (List (List Char))
  | [] => .ok []
  | d :: ds => return (← writeWithin room d) :: (← writeItems room ds)

/-- The JSON text of a record. -/
def writeRecordWithin (room : Nat) : Record → Except Fault (List Char)
  | .entries list => do
    let room ← takeRoom 1 room encodingJson
    return '{' :: (commas (← writeEntries room list) ++ ['}'])
  | .endless => .error .circular

/-- The JSON texts of some entries. -/
def writeEntries (room : Nat) : List (Datum × Datum) → Except Fault (List (List Char))
  | [] => .ok []
  | (k, v) :: rest => do
    let key ← ofKey k
    let value ← writeWithin room v
    return (quote key ++ ':' :: value) :: (← writeEntries room rest)

end

/-- The JSON text of a datum. -/
def write (d : Datum) : Except Fault (List Char) := writeWithin maxDepth d

/-- The JSON text of a record. -/
def writeRecord (r : Record) : Except Fault (List Char) := writeRecordWithin maxDepth r

/-- The JSON text of a list. -/
def writeList (items : List Datum) : Except Fault (List Char) := writeWithin maxDepth (.list items)

end ColumnLabel.Json
