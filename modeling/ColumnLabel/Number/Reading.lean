import ColumnLabel.Fault
import ColumnLabel.Number.Numeral
import ColumnLabel.Text.Blank
import ColumnLabel.Text.Character

/-!
# ColumnLabel.Number.Reading

Reading numbers from text.

A number may stand between blanks, other than the information separators; its digits may come from any
script, and single underscores may part them.  `Double.read?` takes a decimal with an optional fraction
and exponent, or a word for infinity or NaN in any case, and gives the nearest double.  `readInt` takes an
integer of at most 4300 digits.
-/

namespace ColumnLabel

open Text

/-! ## Plain characters -/

/-- A character of a number in ASCII: a blank beyond ASCII is a space, a digit beyond ASCII is that digit,
and all else beyond ASCII stands for no number. -/
def plainChar (c : Char) : Char :=
  if c.toNat < 0x7F then c
  else if isBlank c then ' '
  else
    match decimalValue? c with
    | some d => Nat.digitChar d
    | none => '?'

/-- The blanks of ASCII around a number; the information separators are not among them. -/
def isPadding (c : Char) : Bool := c = ' ' ∨ (0x09 ≤ c.toNat ∧ c.toNat ≤ 0x0D)

/-- A number in plain characters without the padding around it. -/
def plainNumber (cs : List Char) : List Char :=
  let front := (cs.map plainChar).dropWhile isPadding
  (front.reverse.dropWhile isPadding).reverse

/-- A sign in front of a number, and the rest. -/
def takeSign : List Char → Bool × List Char
  | '-' :: cs => (true, cs)
  | '+' :: cs => (false, cs)
  | cs => (false, cs)

/-- A number without its underscores, each of which has to stand between two digits; `digitBefore` says
whether one stood just before. -/
def dropUnderscores (digitBefore : Bool) : List Char → Option (List Char)
  | [] => some []
  | '_' :: d :: cs =>
    if digitBefore && d.isDigit then (dropUnderscores true cs).map (d :: ·) else none
  | ['_'] => none
  | c :: cs => (dropUnderscores c.isDigit cs).map (c :: ·)

/-! ## Decimals -/

/-- The value of a run of digits. -/
def digitsValue (ds : List Char) : Nat := Nat.ofDigitChars 10 ds 0

/-- The magnitude nearest to `ds * 10 ^ e`, unless that is beyond the largest.  Where the first digit
stands already decides about a number that is far out of range, however large its exponent. -/
def Magnitude.ofDecimal? (ds : List Char) (e : Int) : Option Magnitude :=
  let ds := ds.dropWhile (· = '0')
  let place : Int := ds.length + e
  if ds = [] then some .zero
  else if place < -400 then some .zero
  else if 400 < place then none
  else nearest? (digitsValue ds * tenPow e.toNat) (tenPow (-e).toNat)

/-- A decimal read from text: its sign, its digits without the point, and the power of ten that scales
them. -/
structure Scientific where
  negative : Bool
  digits : List Char
  exponent : Int

/-- A run of digits with an optional sign, as the whole text. -/
def readExponent? (cs : List Char) : Option Int :=
  let (negative, ds) := takeSign cs
  if ds = [] ∨ !ds.all Char.isDigit then none
  else
    let e : Int := digitsValue ds
    some (if negative then -e else e)

/-- A decimal with an optional fraction and exponent, as the whole text without a sign. -/
def readUnsigned? (negative : Bool) (cs : List Char) : Option Scientific :=
  let whole := cs.takeWhile Char.isDigit
  let afterWhole := cs.dropWhile Char.isDigit
  let (fraction, rest) :=
    match afterWhole with
    | '.' :: cs => (cs.takeWhile Char.isDigit, cs.dropWhile Char.isDigit)
    | cs => ([], cs)
  let digits := whole ++ fraction
  if digits = [] then none
  else
    match rest with
    | [] => some { negative, digits, exponent := -fraction.length }
    | c :: cs =>
      if c = 'e' ∨ c = 'E' then
        (readExponent? cs).map fun e => { negative, digits, exponent := e - fraction.length }
      else none

/-- The double nearest to a decimal; beyond the largest one it is infinite. -/
def Scientific.toDouble (s : Scientific) : Double :=
  match Magnitude.ofDecimal? s.digits s.exponent with
  | some m => .finite s.negative m
  | none => .infinite s.negative

/-- The double written in plain characters, as the whole text. -/
def Double.readPlain? (cs : List Char) : Option Double :=
  let (negative, body) := takeSign cs
  let word := body.map Char.toLower
  if word = "inf".toList ∨ word = "infinity".toList then some (.infinite negative)
  else if word = "nan".toList then some .nan
  else (readUnsigned? negative body).map Scientific.toDouble

/-- The double written in a text. -/
def Double.read? (cs : List Char) : Option Double :=
  (dropUnderscores false (plainNumber cs)).bind Double.readPlain?

/-! ## Integers -/

/-- The integer written in a text. -/
def readInt (text : String) : Except Fault Int :=
  let (negative, body) := takeSign (plainNumber text.toList)
  let run := body.takeWhile fun c => c.isDigit || c = '_'
  match dropUnderscores false run with
  | none => .error (.notAnInteger text)
  | some ds =>
    if Numeral.maxDigits < ds.length then .error (.digitsTooMany ds.length)
    else if ds = [] ∨ run.length ≠ body.length then .error (.notAnInteger text)
    else
      let n : Int := digitsValue ds
      .ok (if negative then -n else n)

end ColumnLabel
