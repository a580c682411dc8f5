import ColumnLabel.Template.Basic
import ColumnLabel.Text.Blank

/-!
# ColumnLabel.Template.Placeholder

Reading the segments of a text.  A placeholder runs from the last `{{` in front of a `}}` to that `}}`:
in `{{{x}}}` it is `{{x}}`, with one brace of literal text on each side.  A placeholder whose name is
blank is literal text, and so is a `{{` that is never closed.

The scan goes once from left to right.  It holds the literal text since the last placeholder, and, while
a `{{` is open, the characters after it, both with the latest character first.  The main statement is
that no character is lost (`sources_read`).
-/

namespace ColumnLabel.Segment

open Text

/-- The literal text held so far as a segment, in front of `rest`; no empty segment is made. -/
def flush (held : List Char) (rest : List Segment) : List Segment :=
  match held with
  | [] => rest
  | held => .literal (String.ofList held.reverse) :: rest

/-- The scan of a text with `held` in hand and, if a `{{` is open, the characters since. -/
def scan (held : List Char) : Option (List Char) → List Char → List Segment
  | none, [] => flush held []
  | some inner, [] => flush (inner ++ '{' :: '{' :: held) []
  | none, '{' :: '{' :: cs => scan held (some []) cs
  | none, c :: cs => scan (c :: held) none cs
  | some inner, '}' :: '}' :: cs =>
    match trim inner.reverse with
    | [] => scan ('}' :: '}' :: (inner ++ '{' :: '{' :: held)) none cs
    | name =>
      flush held <|
        .placeholder (String.ofList name)
          (String.ofList ('{' :: '{' :: (inner.reverse ++ ['}', '}']))) ::
        scan [] none cs
  | some [], '{' :: cs => scan ('{' :: held) (some []) cs
  | some ('{' :: inner), '{' :: cs => scan (inner ++ '{' :: '{' :: held) (some []) cs
  | some inner, c :: cs => scan held (some (c :: inner)) cs

/-- The segments of a text. -/
def readChars (cs : List Char) : List Segment := scan [] none cs

/-- The segments of a text. -/
def read (text : String) : List Segment := readChars text.toList

/-! ## Nothing is lost -/

theorem toList_sources_flush (held : List Char) (rest : List Segment) :
    (sources (flush held rest)).toList = held.reverse ++ (sources rest).toList := by
  cases held <;> simp [flush]

/-- The characters an open marker stands for, ahead of the rest of the text. -/
def opened : Option (List Char) → List Char
  | none => []
  | some inner => '{' :: '{' :: inner.reverse

theorem toList_sources_scan (held : List Char) (inner : Option (List Char)) (cs : List Char) :
    (sources (scan held inner cs)).toList = held.reverse ++ opened inner ++ cs := by
  fun_induction scan held inner cs <;> simp_all [toList_sources_flush, opened]

theorem toList_sources_readChars (cs : List Char) : (sources (readChars cs)).toList = cs := by
  simp [readChars, toList_sources_scan, opened]

/-- The segments of a text, written one after the other, are the text. -/
@[simp] theorem sources_read (text : String) : sources (read text) = text := by
  rw [← String.toList_inj]; simp [read, toList_sources_readChars]

end ColumnLabel.Segment
