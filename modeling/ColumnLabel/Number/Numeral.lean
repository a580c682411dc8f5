import ColumnLabel.Number.Double

/-!
# ColumnLabel.Number.Numeral

Decimal numerals of whole numbers: the plain one, and the grouped one that a label shows, with a comma
between each three digits counted from the right.

`thousandths` is the numeral of a fraction in a label: rounded to three places, a half to the even
neighbour, and without the zeros, or the point, at its end.
-/

namespace ColumnLabel.Numeral

/-! ## Whole numbers -/

/-- The decimal digits of a whole number, the first one not zero unless it stands alone. -/
def digits (n : Nat) : List Char := Nat.toDigits 10 n

/-- A sign in front of a numeral. -/
def signed (negative : Bool) (cs : List Char) : List Char := if negative then '-' :: cs else cs

/-- The numeral of an integer. -/
def ofInt (i : Int) : List Char := signed (i < 0) (digits i.natAbs)

/-- The most digits a numeral may have. -/
def maxDigits : Nat := 4300

/-- May an integer be written out? -/
def isWritable (i : Int) : Bool := i.natAbs < tenPow maxDigits

/-! ## Groups of three -/

/-- A comma after each three digits that another digit follows; the digits stand with the last one
first. -/
def groupReversed : List Char → List Char
  | a :: b :: c :: d :: rest => a :: b :: c :: ',' :: groupReversed (d :: rest)
  | short => short

/-- A comma between each three digits, counted from the right. -/
def group (ds : List Char) : List Char := (groupReversed ds.reverse).reverse

/-- The grouped numeral of an integer. -/
def grouped (i : Int) : List Char := signed (i < 0) (group (digits i.natAbs))

theorem filter_groupReversed {ds : List Char} (h : ',' ∉ ds) :
    (groupReversed ds).filter (· ≠ ',') = ds := by
  fun_induction groupReversed ds with
  | case1 a b c d rest ih =>
    simp only [List.mem_cons, not_or] at h ih
    obtain ⟨ha, hb, hc, hd, hr⟩ := h
    simpa [Ne.symm ha, Ne.symm hb, Ne.symm hc] using ih ⟨hd, hr⟩
  | case2 ds =>
    rw [List.filter_eq_self]
    intro c hc
    simp only [ne_eq, decide_not, Bool.not_eq_eq_eq_not, Bool.not_true, decide_eq_false_iff_not]
    rintro rfl
    exact h hc

/-- Grouping adds commas and nothing else. -/
theorem filter_group {ds : List Char} (h : ',' ∉ ds) : (group ds).filter (· ≠ ',') = ds := by
  unfold group
  rw [List.filter_reverse, filter_groupReversed (by simpa using h), List.reverse_reverse]

/-! ## Fractions -/

/-- A text without the zeros at its end. -/
def dropZeros (cs : List Char) : List Char := (cs.reverse.dropWhile (· = '0')).reverse

/-- The three digits of a number below a thousand. -/
def threeDigits (n : Nat) : List Char :=
  [n / 100, n / 10 % 10, n % 10].map Nat.digitChar

/-- The grouped numeral of a number of thousandths, without zeros at the end of its fraction. -/
def thousandths (negative : Bool) (n : Nat) : List Char :=
  let fraction := dropZeros (threeDigits (n % 1000))
  signed negative <|
    group (digits (n / 1000)) ++ if fraction = [] then [] else '.' :: fraction

/-- The numeral that a label shows for a magnitude with a fraction. -/
def ofMagnitude (negative : Bool) (m : Magnitude) : List Char :=
  thousandths negative (roundDiv (m.num * 1000) m.den)

end ColumnLabel.Numeral
