import ColumnLabel.Datum.Basic
import ColumnLabel.Datum.Moment
import ColumnLabel.Number.Shortest

/-!
# ColumnLabel.Datum.Written

The written form of raw data: the text that stands for it in messages, and in labels where the data is
neither a number nor a container.  `Datum.written` quotes texts and names the kinds of the less common
data; `Datum.plain` is the same but for data that has a plain text of its own.

Writing fails only where an integer in the data has too many digits, or where the data is nested too deep.
-/

namespace ColumnLabel

/-- Pieces with a comma and a blank between them. -/
def commaSeparated (pieces : List (List Char)) : List Char := ", ".toList.intercalate pieces

/-- The numeral of an integer, unless it has too many digits. -/
def writeInt (i : Int) : Except Fault (List Char) :=
  if Numeral.isWritable i then .ok (Numeral.ofInt i) else .error .numeralTooLong

/-- The written form of a range; a step of one is left out. -/
def Range.written (r : Range) : Except Fault (List Char) := do
  let bounds := if r.step = 1 then [r.start, r.stop] else [r.start, r.stop, r.step]
  let pieces ← bounds.mapM writeInt
  return "range(".toList ++ commaSeparated pieces ++ [')']

/-- The written form of a tuple; a comma follows an only item. -/
def writeTuple : List (List Char) → List Char
  | [item] => '(' :: (item ++ [',', ')'])
  | items => '(' :: (commaSeparated items ++ [')'])

/-- The written form of a set. -/
def writeSet : List (List Char) → List Char
  | [] => "set()".toList
  | items => '{' :: (commaSeparated items ++ ['}'])

/-- The written form of a value: its variant, and what it holds. -/
def writeValue (variant : Variant) (content : List Char) : List Char :=
  variant.name.toList ++ "(value=".toList ++ content ++ [')']

/-- The written form of a truth value. -/
def writeBool (b : Bool) : List Char := (if b then "True" else "False").toList

/-- The written form of a number. -/
def Number.written : Number → Except Fault (List Char)
  | .int i => writeInt i
  | .double x => .ok x.write

/-- What one does who is writing data. -/
def gettingWritten : String := "getting the repr of an object"

mutual

/-- The written form of a datum, with some room to go deeper. -/
def Datum.writtenWithin (room : Nat) : Datum → Except Fault (List Char)
  | .none => .ok "None".toList
  | .bool b => .ok (writeBool b)
  | .int i => writeInt i
  | .double x => .ok x.write
  | .decimal d => .ok ("Decimal('".toList ++ d.text.toList ++ "')".toList)
  | .text s => .ok (Text.quoteChars s.toList)
  | .bytes bs => .ok (Text.quoteBytes bs)
  | .date d => .ok d.written
  | .time c => .ok c.written
  | .dateTime t => .ok t.written
  | .list items => do
    let room ← takeRoom 1 room gettingWritten
    let pieces ← writtenItems room items
    return '[' :: (commaSeparated pieces ++ [']'])
  | .tuple items => do
    let room ← takeRoom 1 room gettingWritten
    return writeTuple (← writtenItems room items)
  | .set items => do
    let room ← takeRoom 1 room gettingWritten
    return writeSet (← writtenItems room items)
  | .range r => r.written
  | .record r => r.writtenWithin room
  | .endless => .ok "[[...]]".toList
  | .value v => do
    let room ← takeRoom valueLevels room gettingWritten
    v.writtenWithin room

/-- The written forms of some data. -/
def writtenItems (room : Nat) : List Datum → Except Fault (List (List Char))
  | [] => .ok []
  | d :: ds => return (← d.writtenWithin room) :: (← writtenItems room ds)

/-- The written form of a record. -/
def Record.writtenWithin (room : Nat) : Record → Except Fault (List Char)
  | .entries list => do
    let room ← takeRoom 1 room gettingWritten
    let pieces ← writtenEntries room list
    return '{' :: (commaSeparated pieces ++ ['}'])
  | .endless => .ok "\x7b'self': \x7b...\x7d\x7d".toList

/-- The written forms of some entries. -/
def writtenEntries (room : Nat) : List (Datum × Datum) → Except Fault (List (List Char))
  | [] => .ok []
  | (k, v) :: rest => do
    let key ← k.writtenWithin room
    let value ← v.writtenWithin room
    return (key ++ ':' :: ' ' :: value) :: (← writtenEntries room rest)

/-- The written form of a value. -/
def Value.writtenWithin (room : Nat) : Value → Except Fault (List Char)
  | .absent => .ok (Variant.absent.name.toList ++ ['(', ')'])
  | .bool b => .ok (writeValue .bool (writeBool b))
  | .number n => return writeValue .number (← n.written)
  | .text s => .ok (writeValue .text (Text.quoteChars s.toList))
  | .unchecked d => return writeValue .text (← d.writtenWithin room)
  | .record r => return writeValue .record (← r.writtenWithin room)
  | .list items => do
    let room ← takeRoom 1 room gettingWritten
    return writeValue .list (writeTuple (← writtenItems room items))

end

/-- The written form of a datum. -/
def Datum.written (d : Datum) : Except Fault (List Char) := d.writtenWithin maxDepth

/-- The plain text of a datum, with some room to go deeper: a text is its own, dates, times and decimals are their
notations, and the rest is its written form. -/
def Datum.plainWithin (room : Nat) : Datum → Except Fault (List Char)
  | .text s => .ok s.toList
  | .decimal d => .ok d.text.toList
  | .date d => .ok d.notate
  | .time c => .ok c.notate
  | .dateTime t => .ok (t.notate ' ')
  | d => d.writtenWithin room

/-- The plain text of a datum. -/
def Datum.plain (d : Datum) : Except Fault (List Char) := d.plainWithin maxDepth

end ColumnLabel
