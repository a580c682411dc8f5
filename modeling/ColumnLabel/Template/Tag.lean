import ColumnLabel.Text.Blank

/-!
# ColumnLabel.Template.Tag

The directive tags of a template: `{% if c %}`, `{% elif c %}`, `{% else %}` and `{% endif %}`.

A tag runs from the last `{%` in front of a `%}` to that `%}`, and what stands between them has to say
one of the four directives; everything else is text.  Where a `{` stands right in front of a `%}`, the two
marks share their `%`: the closing mark is tried first, and only if it closes no tag does the `{%` open
one.

`lex` parts a template into tags and the text between them.  The main statement is that no character is
lost (`sources_lex`).
-/

namespace ColumnLabel

open Text

/-- What a well-formed tag says.  A condition is a trimmed text without `%` and `}`. -/
inductive Directive where
  | opening (condition : String)
  | alternative (condition : String)
  | otherwise
  | closing
  deriving DecidableEq, Repr

/-- The directive written between the two marks of a tag. -/
def Directive.read? (inner : List Char) : Option Directive :=
  let text := trim inner
  if text = "else".toList then some .otherwise
  else if text = "endif".toList then some .closing
  else
    match firstWord? text with
    | none => none
    | some (keyword, condition) =>
      if condition = [] ∨ '%' ∈ condition ∨ '}' ∈ condition then none
      else if keyword = "if".toList then some (.opening (String.ofList condition))
      else if keyword = "elif".toList then some (.alternative (String.ofList condition))
      else none

/-- A piece of a template: text, or a tag with the characters it was written as. -/
inductive Token where
  | text (chars : List Char)
  | tag (directive : Directive) (raw : List Char)
  deriving DecidableEq, Repr

namespace Token

/-- The characters of a token as they were written. -/
def source : Token → List Char
  | .text chars => chars
  | .tag _ raw => raw

/-- The characters of a run of tokens as they were written. -/
def sources (tokens : List Token) : List Char := (tokens.map source).flatten

@[simp] theorem source_text (chars : List Char) : (text chars).source = chars := rfl

@[simp] theorem source_tag (d : Directive) (raw : List Char) : (tag d raw).source = raw := rfl

@[simp] theorem sources_nil : sources [] = [] := rfl

@[simp] theorem sources_cons (t : Token) (ts : List Token) : sources (t :: ts) = t.source ++ sources ts :=
  rfl

/-! ## The scan -/

/-- The text held so far as a token, in front of `rest`; no empty token is made. -/
def flush (held : List Char) (rest : List Token) : List Token :=
  match held with
  | [] => rest
  | held => .text held.reverse :: rest

/-- The scan of a template with the text since the last tag in hand and, if a `{%` is open, the
characters since, both with the latest character first. -/
def scan (held : List Char) : Option (List Char) → List Char → List Token
  | none, [] => flush held []
  | some inner, [] => flush (inner ++ '%' :: '{' :: held) []
  | none, '{' :: '%' :: cs => scan held (some []) cs
  | none, c :: cs => scan (c :: held) none cs
  | some inner, '%' :: '}' :: cs =>
    match Directive.read? inner.reverse with
    | some directive =>
      flush held <|
        .tag directive ('{' :: '%' :: (inner.reverse ++ ['%', '}'])) :: scan [] none cs
    | none => scan ('}' :: '%' :: (inner ++ '%' :: '{' :: held)) none cs
  | some inner, '{' :: '%' :: '}' :: cs =>
    match Directive.read? ('{' :: inner).reverse with
    | some directive =>
      flush held <|
        .tag directive ('{' :: '%' :: (inner.reverse ++ ['{', '%', '}'])) :: scan [] none cs
    | none => scan (inner ++ '%' :: '{' :: held) (some ['}']) cs
  | some inner, '{' :: '%' :: cs => scan (inner ++ '%' :: '{' :: held) (some []) cs
  | some inner, c :: cs => scan held (some (c :: inner)) cs

/-- The tokens of a template. -/
def lex (cs : List Char) : List Token := scan [] none cs

/-! ## Nothing is lost -/

theorem sources_flush (held : List Char) (rest : List Token) :
    sources (flush held rest) = held.reverse ++ sources rest := by
  cases held <;> simp [flush]

/-- The characters an open mark stands for, ahead of the rest of the text. -/
def opened : Option (List Char) → List Char
  | none => []
  | some inner => '{' :: '%' :: inner.reverse

theorem sources_scan (held : List Char) (inner : Option (List Char)) (cs : List Char) :
    sources (scan held inner cs) = held.reverse ++ opened inner ++ cs := by
  fun_induction scan held inner cs <;> simp_all [sources_flush, opened]

/-- The tokens of a template, written one after the other, are the template. -/
@[simp] theorem sources_lex (cs : List Char) : sources (lex cs) = cs := by
  simp [lex, sources_scan, opened]

end Token

end ColumnLabel
