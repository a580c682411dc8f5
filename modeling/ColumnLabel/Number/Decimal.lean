import ColumnLabel.Number.Reading

/-!
# ColumnLabel.Number.Decimal

Decimal numbers as a data source hands them over: kept as the text of their canonical notation, with the
sign, the digits and an exponent after `E`, or a word for infinity or NaN.  A NaN whose word starts with
an `s` signals: it may be carried around but takes part in no arithmetic.

`Exact` is the exact value of a number of any kind.  Two numbers are the same key of a record when their
exact values are the same.
-/

namespace ColumnLabel

/-- A decimal number in its canonical notation. -/
structure Decimal where
  text : String
  deriving DecidableEq, Repr

/-- The exact value of a number: `coefficient * 10 ^ exponent` with a sign, where the coefficient ends in
no zero, or infinity.  Zero has neither sign nor exponent. -/
inductive Exact where
  | finite (negative : Bool) (coefficient : Nat) (exponent : Int)
  | infinite (negative : Bool)
  deriving DecidableEq, Repr

namespace Exact

/-- Moves zeros from the end of a coefficient into the exponent; `fuel` bounds their number. -/
def dropZeros : (fuel : Nat) → Nat → Int → Nat × Int
  | 0, c, e => (c, e)
  | fuel + 1, c, e => if c % 10 = 0 then dropZeros fuel (c / 10) (e + 1) else (c, e)

/-- The exact value of `c * 10 ^ e` with a sign. -/
def ofScaled (negative : Bool) (c : Nat) (e : Int) : Exact :=
  if c = 0 then .finite false 0 0
  else
    let (c, e) := dropZeros c.log2 c e
    .finite negative c e

/-- The exact value of a double, unless it is not a number. -/
def ofDouble? : Double → Option Exact
  | .nan => none
  | .infinite negative => some (.infinite negative)
  | .finite negative m =>
    let k := (-m.exponent).toNat
    some (ofScaled negative (m.num * Nat.pow 5 k) (-k))

/-- The exact value of a number, unless it is not one. -/
def ofNumber? : Number → Option Exact
  | .int i => some (ofScaled (i < 0) i.natAbs 0)
  | .double x => ofDouble? x

end Exact

namespace Decimal

/-- The sign of a notation, and the rest of it. -/
def unsigned (d : Decimal) : Bool × List Char := takeSign d.text.toList

/-- Is it a NaN that signals? -/
def isSignaling (d : Decimal) : Bool := "sNaN".toList.isPrefixOf d.unsigned.2

/-- Is it not a number? -/
def isNaN (d : Decimal) : Bool := d.isSignaling || "NaN".toList.isPrefixOf d.unsigned.2

/-- The double nearest to a decimal that does not signal. -/
def toDouble (d : Decimal) : Double :=
  if d.isNaN then .nan else (Double.readPlain? d.text.toList).getD .nan

/-- Is it a zero? -/
def isZero (d : Decimal) : Bool :=
  match readUnsigned? d.unsigned.1 d.unsigned.2 with
  | some s => s.digits.all (· = '0')
  | none => false

/-- The exact value, unless it is not a number. -/
def exactValue? (d : Decimal) : Option Exact :=
  if d.isNaN then none
  else
    match readUnsigned? d.unsigned.1 d.unsigned.2 with
    | some s => some (Exact.ofScaled s.negative (digitsValue s.digits) s.exponent)
    | none => some (.infinite d.unsigned.1)

end Decimal

end ColumnLabel
