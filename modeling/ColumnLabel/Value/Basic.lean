import ColumnLabel.Json.Writer

/-!
# ColumnLabel.Value.Basic

The values that labels show.  Every datum becomes a value of one of six variants (`Value.ofDatum`), and
each variant has its own rules for three things: the text that fills a placeholder (`display`), the text
that conditions compare (`asText`), and whether it counts as true (`isTruthy`).

A number is shown grouped, with at most three decimals; conditions compare its plain notation.  Records
and lists are shown as compact JSON and always count as true.  A value that carries unchecked content is
shown as that content, which is no text; hence `display` gives a datum.
-/

namespace ColumnLabel

namespace Value

/-! ## Wrapping raw data -/

/-- The value of a datum.  Decimals become doubles, which one that signals cannot; sequences and sets
become lists; what is none of the known kinds becomes its plain text. -/
def ofDatum : Datum → Except Fault Value
  | .value v => .ok v
  | .none => .ok .absent
  | .bool b => .ok (.bool b)
  | .int i => .ok (.number (.int i))
  | .double x => .ok (.number (.double x))
  | .decimal d => if d.isSignaling then .error .signalingNaN else .ok (.number (.double d.toDouble))
  | .text s => .ok (.text s)
  | .record r => .ok (.record r)
  | .list items | .tuple items | .set items => .ok (.list items)
  | .endless => .ok (.list [.endless])
  | .range r => .ok (.list (r.toList.map .int))
  | d => return .text (String.ofList (← d.plain))

end Value

/-! ## Numbers -/

namespace Number

/-- The text that a label shows for a number. -/
def display : Number → Except Fault (List Char)
  | .int i => if Numeral.isWritable i then .ok (Numeral.grouped i) else .error .numeralTooLong
  | .double .nan => .ok "NaN".toList
  | .double (.infinite negative) => .ok (Numeral.signed negative "∞".toList)
  | .double (.finite negative m) =>
    match (Double.finite negative m).toInt? with
    | some i => .ok (Numeral.grouped i)
    | none => .ok (Numeral.ofMagnitude negative m)

/-- The text that conditions compare. -/
def asText : Number → Except Fault (List Char)
  | .int i => writeInt i
  | .double .nan => .ok "NaN".toList
  | .double (.infinite negative) => .ok (Numeral.signed negative "Infinity".toList)
  | .double (.finite negative m) =>
    match (Double.finite negative m).toInt? with
    | some i => .ok (Numeral.ofInt i)
    | none => .ok (Double.finite negative m).write

/-- A number counts as true when it is neither zero nor NaN.  The question whether it is NaN is put to
the double nearest to it, which an integer beyond all doubles does not have. -/
def isTruthy (n : Number) : Except Fault Bool :=
  if n.isZero then .ok false
  else
    match n with
    | .int i =>
      match Double.ofInt? i with
      | some _ => .ok true
      | none => .error .integerOutOfRange
    | .double x => .ok (!x.isNaN)

end Number

/-! ## Values -/

namespace Value

/-- The word that a label shows for a truth value. -/
def ofBool (b : Bool) : String := if b then "true" else "false"

/-- What fills a placeholder of the value. -/
def display : Value → Except Fault Datum
  | .absent => .ok (.text "")
  | .bool b => .ok (.text (ofBool b))
  | .number n => return .text (String.ofList (← n.display))
  | .text s => .ok (.text s)
  | .unchecked d => .ok d
  | .record r => return .text (String.ofList (← Json.writeRecord r))
  | .list items => return .text (String.ofList (← Json.writeList items))

/-- What conditions compare. -/
def asText : Value → Except Fault Datum
  | .number n => return .text (String.ofList (← n.asText))
  | v => v.display

/-- Does the value count as true? -/
def isTruthy : Value → Except Fault Bool
  | .absent => .ok false
  | .bool b => .ok b
  | .number n => n.isTruthy
  | .text s => .ok (!s.isEmpty)
  | .unchecked _ | .record _ | .list _ => .ok true

/-- The datum inside a value. -/
def raw : Value → Datum
  | .absent => .none
  | .bool b => .bool b
  | .number (.int i) => .int i
  | .number (.double x) => .double x
  | .text s => .text s
  | .unchecked d => d
  | .record r => .record r
  | .list items => .list items

end Value

end ColumnLabel
