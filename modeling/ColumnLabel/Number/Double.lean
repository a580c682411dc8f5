import ColumnLabel.Number.Rounding

/-!
# ColumnLabel.Number.Double

The numbers of the 64-bit binary format, with exact arithmetic behind every operation.

A finite double is a sign and a magnitude.  The magnitudes are numbered by size: `0` is zero, `1` the
least one, and so on; the number of a magnitude is the pattern of its exponent and fraction bits.  So the
order of the magnitudes is the order of their numbers, and rounding up past a power of two needs no case
of its own.

The value of a magnitude is the fraction `num / den`.  `Magnitude.nearest?` goes the other way: it gives
the magnitude nearest to a fraction, of two equally near ones the even one, and nothing if that lies
beyond the largest.
-/

namespace ColumnLabel

/-! ## Magnitudes -/

/-- How many magnitudes in a row lie at equal distances. -/
def Magnitude.run : Nat := twoPow 52

/-- How many finite magnitudes there are: 2047 runs of them. -/
def Magnitude.count : Nat := 2047 * run

/-- The absolute value of a finite double, by its place in the order of all of them. -/
structure Magnitude where
  ordinal : Nat
  lt_count : ordinal < Magnitude.count
  deriving DecidableEq

namespace Magnitude

/-- The whole number that a power of two scales. -/
def significand (m : Magnitude) : Nat :=
  if m.ordinal < run then m.ordinal else run + m.ordinal % run

/-- The power of two that scales the significand. -/
def exponent (m : Magnitude) : Int :=
  if m.ordinal < run then -1074 else (m.ordinal / run : Nat) - 1075

/-- The numerator of the value. -/
def num (m : Magnitude) : Nat := m.significand * twoPow m.exponent.toNat

/-- The denominator of the value. -/
def den (m : Magnitude) : Nat := twoPow (-m.exponent).toNat

theorem den_pos (m : Magnitude) : 0 < m.den := twoPow_pos _

/-- The magnitude zero. -/
def zero : Magnitude := ⟨0, by decide⟩

/-- The exponent of the power of two at or below `num / den`, for a positive fraction. -/
def floorLog2 (num den : Nat) : Int :=
  let guess : Int := (num.log2 : Int) - den.log2
  if den * twoPow guess.toNat ≤ num * twoPow (-guess).toNat then guess else guess - 1

/-- The magnitude nearest to `num / den`, a half to the even neighbour; nothing beyond the largest. -/
def nearest? (num den : Nat) : Option Magnitude :=
  if num = 0 then some zero
  else
    let e := max (-1074) (floorLog2 num den - 52)
    let units := roundDiv (num * twoPow (-e).toNat) (den * twoPow e.toNat)
    let ordinal := (e + 1074).toNat * run + units
    if h : ordinal < count then some ⟨ordinal, h⟩ else none

/-- A magnitude is whole when its denominator divides its numerator. -/
def isWhole (m : Magnitude) : Bool := m.num % m.den == 0

/-- The whole part of a magnitude. -/
def floor (m : Magnitude) : Nat := m.num / m.den

end Magnitude

/-! ## Doubles -/

/-- A number of the 64-bit binary format. -/
inductive Double where
  | nan
  | infinite (negative : Bool)
  | finite (negative : Bool) (magnitude : Magnitude)
  deriving DecidableEq

namespace Double

/-- Zero, without a sign. -/
def zero : Double := .finite false .zero

/-- Is it not a number? -/
def isNaN : Double → Bool
  | .nan => true
  | _ => false

/-- Is it a zero, of either sign? -/
def isZero : Double → Bool
  | .finite _ m => m.ordinal == 0
  | _ => false

/-- A finite double as a fraction. -/
def fraction (negative : Bool) (m : Magnitude) : Int × Nat :=
  (if negative then -(m.num : Int) else m.num, m.den)

/-- The double nearest to a fraction with a given sign; beyond the largest one it is infinite. -/
def ofFraction (negative : Bool) (num den : Nat) : Double :=
  match Magnitude.nearest? num den with
  | some m => .finite negative m
  | none => .infinite negative

/-- The double nearest to an integer, if one is in reach. -/
def ofInt? (i : Int) : Option Double :=
  (Magnitude.nearest? i.natAbs 1).map (.finite (i < 0))

/-- The integer that a finite double without a fraction stands for. -/
def toInt? : Double → Option Int
  | .finite negative m =>
    if m.isWhole then some (if negative then -(m.floor : Int) else m.floor) else none
  | _ => none

/-! ## Arithmetic -/

/-- The sum, rounded once.  A sum of zero is negative only if both summands are. -/
def add : Double → Double → Double
  | .nan, _ | _, .nan => .nan
  | .infinite s, .infinite t => if s = t then .infinite s else .nan
  | .infinite s, _ | _, .infinite s => .infinite s
  | .finite s a, .finite t b =>
    let (x, dx) := fraction s a
    let (y, dy) := fraction t b
    let num := x * dy + y * dx
    if num = 0 then .finite (s && t) .zero
    else ofFraction (num < 0) num.natAbs (dx * dy)

/-- A double divided by a positive count, rounded once. -/
def divNat : Double → Nat → Double
  | .nan, _ => .nan
  | .infinite s, _ => .infinite s
  | .finite s a, n => ofFraction s a.num (a.den * n)

/-- An integer divided by a positive count, rounded once, if the quotient is in reach. -/
def ofIntDiv? (i : Int) (n : Nat) : Option Double :=
  (Magnitude.nearest? i.natAbs n).map (.finite (i < 0))

end Double

/-! ## Numbers -/

/-- A number of a label: an integer of any size, or a double. -/
inductive Number where
  | int (value : Int)
  | double (value : Double)
  deriving DecidableEq

namespace Number

/-- Is it not a number? -/
def isNaN : Number → Bool
  | .int _ => false
  | .double x => x.isNaN

/-- Is it zero? -/
def isZero : Number → Bool
  | .int i => i == 0
  | .double x => x.isZero

/-- Where a number stands: an exact fraction, or beyond all of them. -/
inductive Place where
  | below
  | at (num : Int) (den : Nat)
  | above

/-- The place of a number; one that is not a number has none. -/
def place? : Number → Option Place
  | .int i => some (.at i 1)
  | .double .nan => none
  | .double (.infinite negative) => some (if negative then .below else .above)
  | .double (.finite negative m) =>
    let (num, den) := Double.fraction negative m
    some (.at num den)

/-- The order of two places. -/
def Place.compare : Place → Place → Ordering
  | .below, .below | .above, .above => .eq
  | .below, _ | _, .above => .lt
  | _, .below | .above, _ => .gt
  | .at a b, .at c d => Ord.compare (a * d) (c * b)

/-- The order of two numbers, compared as exact values; none if one is not a number. -/
def compare? (a b : Number) : Option Ordering :=
  match a.place?, b.place? with
  | some p, some q => some (p.compare q)
  | _, _ => none

/-- Is `a` less than `b`? -/
def lt (a b : Number) : Bool := a.compare? b == some .lt

end Number

end ColumnLabel
