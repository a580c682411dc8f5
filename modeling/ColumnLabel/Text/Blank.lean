/-!
# ColumnLabel.Text.Blank

Blank characters, and what is done with them: trimming a text and taking its first word.

A character is blank when Unicode gives it the bidirectional class of a separator or the property
`White_Space`.  That adds the four information separators U+001C to U+001F to the usual set, and leaves
out the zero-width characters (U+200B, U+FEFF) and U+180E.

Texts are lists of characters here, as everywhere a text is taken apart; `trimmed` is the form on `String`.
-/

namespace ColumnLabel.Text

/-! ## Blank characters -/

/-- Separators and white space: none of them is part of a word. -/
def isBlank (c : Char) : Bool :=
  let n := c.toNat
  (0x09 ≤ n && n ≤ 0x0D) || (0x1C ≤ n && n ≤ 0x20) || n == 0x85 || n == 0xA0 || n == 0x1680 ||
    (0x2000 ≤ n && n ≤ 0x200A) || n == 0x2028 || n == 0x2029 || n == 0x202F || n == 0x205F || n == 0x3000

/-- Every white-space character of ASCII is blank. -/
theorem isBlank_of_isWhitespace {c : Char} (h : c.isWhitespace = true) : isBlank c = true := by
  simp only [Char.isWhitespace, Bool.or_eq_true, decide_eq_true_eq] at h
  rcases h with ((h | h) | h) | h <;> subst h <;> decide

/-! ## Trimming -/

/-- The text without the blanks in front. -/
def trimStart (cs : List Char) : List Char := cs.dropWhile isBlank

/-- The text without the blanks at its end. -/
def trimEnd (cs : List Char) : List Char := (cs.reverse.dropWhile isBlank).reverse

/-- The text without the blanks around it. -/
def trim (cs : List Char) : List Char := trimEnd (trimStart cs)

/-- `trim` on strings. -/
def trimmed (s : String) : String := String.ofList (trim s.toList)

@[simp] theorem trimStart_nil : trimStart [] = [] := rfl

@[simp] theorem trimEnd_nil : trimEnd [] = [] := rfl

@[simp] theorem trim_nil : trim [] = [] := rfl

theorem trimStart_cons (c : Char) (cs : List Char) :
    trimStart (c :: cs) = if isBlank c then trimStart cs else c :: cs := by
  unfold trimStart; split <;> simp_all

@[simp] theorem toList_trimmed (s : String) : (trimmed s).toList = trim s.toList := by
  simp [trimmed]

/-- Only blanks: nothing is left after trimming. -/
def isBlankText (cs : List Char) : Bool := cs.all isBlank

/-! ## Words -/

/-- The first word of a text and what follows it without the blanks between; a text of blanks only has
no word. -/
def firstWord? (cs : List Char) : Option (List Char × List Char) :=
  match trimStart cs with
  | [] => none
  | word => some (word.takeWhile (!isBlank ·), trimStart (word.dropWhile (!isBlank ·)))

end ColumnLabel.Text
