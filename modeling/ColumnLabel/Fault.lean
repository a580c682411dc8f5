import ColumnLabel.Datum.Kind
import ColumnLabel.Text.Quoted

/-!
# ColumnLabel.Fault

The reasons for which an operation gives up, and the message of each.  Most of them are about data that
came from outside: a value that cannot be written out, a key that cannot be looked up, a piece of
configuration of the wrong kind.
-/

namespace ColumnLabel

/-- Why an operation gives up. -/
inductive Fault where
  /-- An integer has more digits than may be written out. -/
  | numeralTooLong
  /-- A numeral has more digits than may be read. -/
  | digitsTooMany (count : Nat)
  /-- A text is not the numeral of an integer. -/
  | notAnInteger (text : String)
  /-- An integer is beyond the largest double. -/
  | integerOutOfRange
  /-- The mean of integers is beyond the largest double. -/
  | quotientOutOfRange
  /-- A decimal that signals cannot become a double. -/
  | signalingNaN
  /-- A decimal that signals cannot be looked up. -/
  | signalingKey
  /-- A container holds itself. -/
  | circular
  /-- Data is nested too deep for what was being done with it. -/
  | tooDeep (doing : String)
  /-- A key of a record has a kind that cannot be written. -/
  | unwritableKey (kind : Kind)
  /-- Data of this kind cannot be looked up. -/
  | unhashable (kind : Kind)
  /-- Data of this kind has no items. -/
  | notIterable (kind : Kind)
  /-- Data of this kind has no such part. -/
  | noPart (kind : Kind) (part : String)
  /-- A name is not a text. -/
  | nameNotText (kind : Kind)
  /-- A name is a run of bytes. -/
  | nameIsBytes
  /-- Bytes cannot start with a text. -/
  | bytesPrefix
  /-- A piece of a label is not a text. -/
  | pieceNotText (index : Nat) (kind : Kind)
  /-- An aggregate function has no word in labels. -/
  | unknownAggregate (name : String)
  /-- The name of a variable is taken. -/
  | alreadyRegistered (name : String)
  /-- There is no such category of variables. -/
  | unknownCategory (name : String)
  /-- A variable's own extractor gave up. -/
  | extractorFailed (reason : String)
  /-- A text names no level of severity. -/
  | unknownLevel (text : String)
  /-- A level is neither a number nor a text; it is shown as written. -/
  | levelOfWrongKind (written : String)
  /-- A text that goes to the system holds the character zero. -/
  | nulInside
  /-- A name for the system holds the mark that ends a name. -/
  | nameWithEquals
  /-- A name for the system is empty. -/
  | emptyName
  deriving DecidableEq, Repr

namespace Fault

/-- Does a fault lie in the data itself?  It does when the data is of the wrong kind, or of the right kind with
a content that will not do.  Other faults lie in a number beyond its reach, in something that was looked up
and is not there, in the room that is left for going deeper into data, in the system, or in somebody else's
extractor. -/
def liesInData : Fault → Bool
  | integerOutOfRange | quotientOutOfRange | tooDeep _ | noPart _ _ | unknownAggregate _
  | extractorFailed _ | emptyName => false
  | numeralTooLong | digitsTooMany _ | notAnInteger _ | signalingNaN | signalingKey | circular
  | unwritableKey _ | unhashable _ | notIterable _ | nameNotText _ | nameIsBytes | bytesPrefix
  | pieceNotText _ _ | alreadyRegistered _ | unknownCategory _ | unknownLevel _ | levelOfWrongKind _
  | nulInside | nameWithEquals => true

/-- What a fault says. -/
def message : Fault → String
  | numeralTooLong =>
    "Exceeds the limit (4300 digits) for integer string conversion; " ++
      "use sys.set_int_max_str_digits() to increase the limit"
  | digitsTooMany count =>
    "Exceeds the limit (4300 digits) for integer string conversion: value has " ++ Nat.repr count ++
      " digits; use sys.set_int_max_str_digits() to increase the limit"
  | notAnInteger text =>
    "invalid literal for int() with base 10: " ++
      String.ofList ((Text.quoteChars text.toList).take 200)
  | integerOutOfRange => "int too large to convert to float"
  | quotientOutOfRange => "integer division result too large for a float"
  | signalingNaN => "cannot convert signaling NaN to float"
  | signalingKey => "Cannot hash a signaling NaN value"
  | circular => "Circular reference detected"
  | tooDeep doing => "maximum recursion depth exceeded while " ++ doing
  | unwritableKey kind => "keys must be str, int, float, bool or None, not " ++ kind.name
  | unhashable kind => "unhashable type: '" ++ kind.name ++ "'"
  | notIterable kind => "'" ++ kind.name ++ "' object is not iterable"
  | noPart kind part => "'" ++ kind.name ++ "' object has no attribute '" ++ part ++ "'"
  | nameNotText kind => "expected string or bytes-like object, got '" ++ kind.name ++ "'"
  | nameIsBytes => "cannot use a string pattern on a bytes-like object"
  | bytesPrefix => "startswith first arg must be bytes or a tuple of bytes, not str"
  | pieceNotText index kind =>
    "sequence item " ++ Nat.repr index ++ ": expected str instance, " ++ kind.name ++ " found"
  | unknownAggregate name => Text.quoted name
  | alreadyRegistered name => "Variable '" ++ name ++ "' is already registered"
  | unknownCategory name => Text.quoted name ++ " is not a valid Category"
  | extractorFailed reason => reason
  | unknownLevel text => "Unknown level: " ++ Text.quoted text
  | levelOfWrongKind written => "Level not an integer or a valid string: " ++ written
  | nulInside => "embedded null byte"
  | nameWithEquals => "illegal environment variable name"
  | emptyName => "[Errno 22] Invalid argument"

end Fault

end ColumnLabel
