import ColumnLabel.Number.Numeral

/-!
# ColumnLabel.Number.Shortest

The shortest decimal notation of a double: the fewest digits that read back as that double, and of those
the nearest to it.

A decimal reads back as a magnitude when it lies in the interval of the fractions that round to it.  The
interval reaches half way to each neighbour; its ends belong to it when the significand is even, because
a half goes to the even neighbour.  For one digit, two digits and so on, `decimal` looks at the two
numbers of that length on either side of the magnitude, and takes the first that reads back.  Seventeen
digits always suffice.

`write` lays the digits out: with a point for decimal exponents from -4 up to 15, else with an exponent
of at least two digits.
-/

namespace ColumnLabel

namespace Magnitude

/-- Half way to the neighbours, in quarters of a unit of the last place: the magnitude itself is four
times its significand.  Below a power of two the units are half as long. -/
def quarters (m : Magnitude) : Nat × Nat :=
  let s := 4 * m.significand
  let narrow := m.significand = run ∧ m.exponent ≠ -1074
  (if narrow then s - 1 else s - 2, s + 2)

/-- Does `n / d` units of the last place, counted in quarters, read back as the magnitude? -/
def readsBack (m : Magnitude) (n d : Nat) : Bool :=
  let (low, high) := m.quarters
  if m.significand % 2 = 0 then low * d ≤ n && n ≤ high * d else low * d < n && n < high * d

/-- The exponent of the power of ten at or below a positive magnitude. -/
def floorLog10 (m : Magnitude) : Int :=
  if m.den ≤ m.num then (Numeral.digits (m.num / m.den)).length - 1
  else
    let k := (Numeral.digits (m.den / m.num)).length
    if m.num * tenPow (k - 1) = m.den then -(k - 1 : Nat) else -k

/-- A multiple of `10 ^ k` that is next to the magnitude and reads back as it, as its number of tens. -/
def onGrid? (m : Magnitude) (k : Int) : Option Nat :=
  let quarter := twoPow (m.exponent - 2).toNat * tenPow (-k).toNat
  let ten := twoPow (2 - m.exponent).toNat * tenPow k.toNat
  let value := 4 * m.significand * quarter
  let below := value / ten
  let above := below + 1
  match m.readsBack (below * ten) quarter, m.readsBack (above * ten) quarter with
  | false, false => none
  | true, false => some below
  | false, true => some above
  | true, true =>
    let toBelow := value - below * ten
    let toAbove := above * ten - value
    if toBelow < toAbove ∨ (toBelow = toAbove ∧ below % 2 = 0) then some below else some above

/-- The first grid from `10 ^ k` downwards with a decimal that reads back; `fuel` bounds the grids. -/
def searchGrid (m : Magnitude) : (fuel : Nat) → (k : Int) → Nat × Int
  | 0, k => (m.num * tenPow (-k).toNat / (m.den * tenPow k.toNat), k)
  | fuel + 1, k =>
    match m.onGrid? k with
    | some d => (d, k)
    | none => searchGrid m fuel (k - 1)

/-- The shortest decimal `d * 10 ^ k` of a positive magnitude, as `d` and `k`. -/
def decimal (m : Magnitude) : Nat × Int := m.searchGrid 17 m.floorLog10

end Magnitude

namespace Double

/-- An exponent with its sign and at least two digits. -/
def exponentText (e : Int) : List Char :=
  let ds := Numeral.digits e.natAbs
  (if e < 0 then '-' else '+') :: if ds.length < 2 then '0' :: ds else ds

/-- Digits with the value `0.ds * 10 ^ point`, laid out. -/
def layOut (ds : List Char) (point : Int) : List Char :=
  if -4 < point ∧ point ≤ 16 then
    if point ≤ 0 then '0' :: '.' :: (List.replicate (-point).toNat '0' ++ ds)
    else
      let whole := ds.take point.toNat
      let zeros := List.replicate (point.toNat - ds.length) '0'
      let fraction := ds.drop point.toNat
      whole ++ zeros ++ '.' :: if fraction = [] then ['0'] else fraction
  else
    let e := 'e' :: exponentText (point - 1)
    match ds with
    | [d] => d :: e
    | d :: fraction => d :: '.' :: (fraction ++ e)
    | [] => e

/-- The shortest notation of a magnitude. -/
def writeMagnitude (m : Magnitude) : List Char :=
  if m.ordinal = 0 then ['0', '.', '0']
  else
    let (d, k) := m.decimal
    let ds := Numeral.digits d
    layOut (Numeral.dropZeros ds) (ds.length + k)

/-- The shortest notation of a double. -/
def write : Double → List Char
  | .nan => "nan".toList
  | .infinite negative => Numeral.signed negative "inf".toList
  | .finite negative m => Numeral.signed negative (writeMagnitude m)

end Double

end ColumnLabel
