/-!
# ColumnLabel.Text.Character

Characters one by one: the digits they stand for, and their letter case.

Decimal digits are those of all scripts (general category `Nd` of Unicode 14.0); they come in runs of ten, from
zero to nine, and the table lists the zeros.  Hexadecimal digits are those of ASCII, in either case.

Letter case is kept as far as it concerns words of ASCII letters.  `foldChar` gives the small letter that a
character counts as when case is ignored: four letters beyond ASCII count as letters of ASCII.  `capitals`
gives the capital letters of a character where these are letters of ASCII, and leaves every other
character alone; a text whose capitals are an ASCII word is thus found whatever its spelling.  The two do not
agree: a dotted capital I counts as `i`, but is its own capital.
-/

namespace ColumnLabel.Text

/-! ## Digits -/

/-- The zeros of the decimal digits. -/
def decimalZeros : List Nat :=
  [0x30, 0x660, 0x6F0, 0x7C0, 0x966, 0x9E6, 0xA66, 0xAE6, 0xB66, 0xBE6, 0xC66, 0xCE6, 0xD66, 0xDE6,
    0xE50, 0xED0, 0xF20, 0x1040, 0x1090, 0x17E0, 0x1810, 0x1946, 0x19D0, 0x1A80, 0x1A90, 0x1B50,
    0x1BB0, 0x1C40, 0x1C50, 0xA620, 0xA8D0, 0xA900, 0xA9D0, 0xA9F0, 0xAA50, 0xABF0, 0xFF10, 0x104A0,
    0x10D30, 0x11066, 0x110F0, 0x11136, 0x111D0, 0x112F0, 0x11450, 0x114D0, 0x11650, 0x116C0,
    0x11730, 0x118E0, 0x11950, 0x11C50, 0x11D50, 0x11DA0, 0x16A60, 0x16AC0, 0x16B50, 0x1D7CE,
    0x1D7D8, 0x1D7E2, 0x1D7EC, 0x1D7F6, 0x1E140, 0x1E2F0, 0x1E950, 0x1FBF0]

/-- The value of a decimal digit of any script. -/
def decimalValue? (c : Char) : Option Nat :=
  let n := c.toNat
  (decimalZeros.find? fun z => z ≤ n && n < z + 10).map (n - ·)

/-- The digits of ASCII have their usual values. -/
theorem decimalValue?_ascii :
    "0123456789".toList.map decimalValue? = (List.range 10).map some := by
  decide

/-- The value of a hexadecimal digit. -/
def hexValue? (c : Char) : Option Nat :=
  let n := c.toNat
  if c.isDigit then some (n - 0x30)
  else if 0x61 ≤ n ∧ n ≤ 0x66 then some (n - 0x57)
  else if 0x41 ≤ n ∧ n ≤ 0x46 then some (n - 0x37)
  else none

/-- The digits in their order have the values from zero to fifteen. -/
theorem hexValue?_inOrder :
    "0123456789abcdef".toList.map hexValue? = (List.range 16).map some := by
  decide

/-! ## Letter case -/

/-- The small letter a character counts as when case is ignored. -/
def foldChar (c : Char) : Char :=
  if c = 'ı' ∨ c = 'İ' then 'i'
  else if c = 'ſ' then 's'
  else if c.toNat = 0x212A then 'k'
  else c.toLower

/-- The characters beyond ASCII whose capitals are letters of ASCII. -/
def asciiCapitals : List (Char × String) :=
  [('ß', "SS"), ('ı', "I"), ('ſ', "S"), ('ﬀ', "FF"), ('ﬁ', "FI"), ('ﬂ', "FL"), ('ﬃ', "FFI"),
    ('ﬄ', "FFL"), ('ﬅ', "ST"), ('ﬆ', "ST")]

/-- The capitals of a character, where they are letters of ASCII. -/
def capitals (c : Char) : List Char :=
  match asciiCapitals.lookup c with
  | some s => s.toList
  | none => [c.toUpper]

/-- The capitals of a text, where they are letters of ASCII. -/
def upper (cs : List Char) : List Char := cs.flatMap capitals

end ColumnLabel.Text
