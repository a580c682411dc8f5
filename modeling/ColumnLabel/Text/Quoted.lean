import ColumnLabel.Text.Printable

/-!
# ColumnLabel.Text.Quoted

The quoted form of a text, as it stands in messages and in the written form of data.  A text is put in
single quotes, or in double quotes if it holds a single quote and no double one.  A backslash and the
chosen quote get a backslash; a tab, line feed and carriage return are `\t`, `\n`, `\r`; every other
character that is not printable is written by its code point in hexadecimal, with two digits as `\xhh`,
four as `\uhhhh` or eight as `\Uhhhhhhhh`, whichever is the first that fits.

In HTML `&`, `<` and `>` become entities.  Quotes stay, because the text is no attribute.
-/

namespace ColumnLabel.Text

/-- The last `width` hexadecimal digits of a number, in lower case. -/
def hexDigits : (width : Nat) → Nat → List Char
  | 0, _ => []
  | width + 1, n => hexDigits width (n / 16) ++ [Nat.digitChar (n % 16)]

@[simp] theorem length_hexDigits (width n : Nat) : (hexDigits width n).length = width := by
  induction width generalizing n with
  | zero => rfl
  | succ width ih => simp [hexDigits, ih]

/-- A character that is not printable, by its code point. -/
def escapeCodePoint (n : Nat) : List Char :=
  if n < 0x100 then '\\' :: 'x' :: hexDigits 2 n
  else if n < 0x10000 then '\\' :: 'u' :: hexDigits 4 n
  else '\\' :: 'U' :: hexDigits 8 n

/-- A character as it stands between two `quote` marks. -/
def quoteChar (quote c : Char) : List Char :=
  if c = quote ∨ c = '\\' then ['\\', c]
  else if c = '\t' then ['\\', 't']
  else if c = '\n' then ['\\', 'n']
  else if c = '\r' then ['\\', 'r']
  else if isPrintable c then [c]
  else escapeCodePoint c.toNat

/-- The mark a text is quoted with. -/
def quoteMark (cs : List Char) : Char :=
  if '\'' ∈ cs ∧ '"' ∉ cs then '"' else '\''

/-- The quoted form of a text. -/
def quoteChars (cs : List Char) : List Char :=
  let quote := quoteMark cs
  quote :: (cs.flatMap (quoteChar quote) ++ [quote])

/-- The quoted form of a text. -/
def quoted (s : String) : String := String.ofList (quoteChars s.toList)

/-- A byte as it stands between two `quote` marks: printable ASCII as itself, the rest by its code. -/
def quoteByte (quote : Char) (b : UInt8) : List Char :=
  let c := Char.ofNat b.toNat
  if b.toNat < 0x80 then quoteChar quote c else '\\' :: 'x' :: hexDigits 2 b.toNat

/-- The quoted form of a run of bytes, marked by a `b` in front. -/
def quoteBytes (bytes : List UInt8) : List Char :=
  let quote := quoteMark (bytes.map fun b => Char.ofNat b.toNat)
  'b' :: quote :: (bytes.flatMap (quoteByte quote) ++ [quote])

/-! ## Text inside HTML -/

/-- A character as it stands in the text of an HTML document. -/
def escapeHtmlChar (c : Char) : List Char :=
  if c = '&' then "&amp;".toList
  else if c = '<' then "&lt;".toList
  else if c = '>' then "&gt;".toList
  else [c]

/-- A text as it stands in an HTML document. -/
def escapeHtml (s : String) : String := String.ofList (s.toList.flatMap escapeHtmlChar)

end ColumnLabel.Text
