import ColumnLabel.Condition.Basic
import ColumnLabel.Proofs.Number.Characters
import ColumnLabel.Proofs.Text.Cut
import ColumnLabel.Proofs.Text.Trim

/-!
# ColumnLabel.Proofs.Condition.Reading

What the conditions are read as.

The four forms are tried one after another on the same text, so a condition is read as what was written when the forms
before its own turn it down.  A comparison with a literal needs a quote at the end of the text
(`readEquals?_eq_none_of_getLast`), a question for the start of a text a parenthesis, and the text of a number has
neither of them and no operator (`not_mem_of_read?`).  The main statement is that a condition of each form is read back
as what was written, whatever stands in its literal (`read_written`).
-/

namespace ColumnLabel

open Text

namespace Condition

/-! ## Literals -/

/-- A literal between two quotes. -/
def quoted (quote : Char) (literal : List Char) : List Char := quote :: (literal ++ [quote])

theorem getLast?_quoted (quote : Char) (literal : List Char) :
    (quoted quote literal).getLast? = some quote := by
  rw [quoted, ← List.cons_append, List.getLast?_concat]

theorem not_isBlank_of_isQuote {c : Char} (h : isQuote c = true) : isBlank c = false := by
  obtain rfl | rfl := of_decide_eq_true h <;> decide

theorem trim_quoted {quote : Char} (hq : isQuote quote = true) (literal : List Char) :
    trim (quoted quote literal) = quoted quote literal := by
  have hblank := not_isBlank_of_isQuote hq
  have hquote : trim [quote] = [quote] := by
    rw [trim_eq_self_iff]
    simpa using hblank
  exact trim_append_append hquote (by simp) hquote (by simp) literal

theorem unquote?_quoted {quote : Char} (hq : isQuote quote = true) (literal : List Char) :
    unquote? (quoted quote literal) = some literal := by
  rw [unquote?, trim_quoted hq]
  simp [quoted, hq]

/-- The blank in front of a literal does not count. -/
theorem unquote?_blank_cons (cs : List Char) : unquote? (' ' :: cs) = unquote? cs := by
  rw [unquote?, unquote?, trim_cons_of_blank (by decide)]

/-- What ends neither with a quote nor with a blank is no literal. -/
theorem unquote?_eq_none_of_getLast {cs : List Char} {c : Char} (h : cs.getLast? = some c)
    (hblank : isBlank c = false) (hquote : isQuote c = false) : unquote? cs = none := by
  have hlast := getLast?_trim h hblank
  rw [unquote?]
  cases ht : trim cs with
  | nil => rfl
  | cons quote rest =>
      rw [ht] at hlast
      refine if_neg fun hboth => ?_
      obtain ⟨hq, hrest⟩ := hboth
      have hne : rest ≠ [] := by
        rintro rfl
        contradiction
      rw [List.getLast?_cons_of_ne_nil hne, hrest, Option.some.injEq] at hlast
      rw [hlast, hquote] at hq
      contradiction

/-! ## Forms that turn a text down -/

theorem readEquals?_eq_none_of_absent {cs : List Char} (h : ¬ "==".toList <:+: cs) :
    readEquals? cs = none := by
  rw [readEquals?, cutAtFirst?_eq_none_iff.mpr h]
  rfl

theorem readEquals?_eq_none_of_getLast {cs : List Char} {c : Char} (h : cs.getLast? = some c)
    (hblank : isBlank c = false) (hquote : isQuote c = false) : readEquals? cs = none := by
  rw [readEquals?]
  cases hcut : cutAtFirst? "==".toList cs with
  | none => rfl
  | some cut =>
      have hnone : unquote? cut.2 = none := by
        by_cases hne : cut.2 = []
        · rw [hne]
          rfl
        · rw [eq_of_cutAtFirst?_eq_some hcut, List.getLast?_append_of_ne_nil _ hne] at h
          exact unquote?_eq_none_of_getLast h hblank hquote
      show (unquote? cut.2).bind _ = none
      rw [hnone]
      rfl

theorem readStartsWith?_eq_none_of_absent {cs : List Char} (h : ¬ ".startswith(".toList <:+: cs) :
    readStartsWith? cs = none := by
  rw [readStartsWith?, cutAtFirst?_eq_none_iff.mpr h]
  by_cases hlast : cs.getLast? = some ')'
  · rw [guard, if_pos hlast]
    rfl
  · rw [guard, if_neg hlast]
    rfl

theorem readStartsWith?_eq_none_of_getLast {cs : List Char} (h : cs.getLast? ≠ some ')') :
    readStartsWith? cs = none := by
  rw [readStartsWith?, guard, if_neg h]
  rfl

/-- An operator starts with `<` or `>`, and has no other one of them. -/
theorem exists_operator_eq_cons (side : Comparison) :
    ∃ m mark, side.operator = m :: mark ∧ m ∉ mark ∧ (m = '<' ∨ m = '>') := by
  cases side with
  | greater => exact ⟨'>', [], rfl, by decide, .inr rfl⟩
  | greaterOrEqual => exact ⟨'>', ['='], rfl, by decide, .inr rfl⟩
  | less => exact ⟨'<', [], rfl, by decide, .inl rfl⟩
  | lessOrEqual => exact ⟨'<', ['='], rfl, by decide, .inl rfl⟩

/-- Without `<` and `>` there is nothing to compare. -/
theorem readCompares?_eq_none {cs : List Char} (hless : '<' ∉ cs) (hgreater : '>' ∉ cs) :
    readCompares? cs = none := by
  have hcut : ∀ side : Comparison, cutAtFirst? side.operator cs = none := by
    intro side
    obtain ⟨m, mark, hop, -, hm⟩ := exists_operator_eq_cons side
    refine cutAtFirst?_eq_none_of_not_mem (hop ▸ List.mem_cons_self) ?_
    obtain rfl | rfl := hm
    · exact hless
    · exact hgreater
  simp [readCompares?, Comparison.order, hcut]

/-! ## Conditions as they were written -/

theorem read_ofList {cs : List Char} (h : trim cs = cs) : read (String.ofList cs) =
    (readEquals? cs <|> readStartsWith? cs <|> readCompares? cs).getD (.holds (String.ofList cs)) := by
  simp only [read, String.toList_ofList, h]

/-- A name that nothing in it turns into another condition. -/
theorem read_holds {name : List Char} (hname : trim name = name) (hequals : ¬ "==".toList <:+: name)
    (hstarts : ¬ ".startswith(".toList <:+: name) (hless : '<' ∉ name) (hgreater : '>' ∉ name) :
    read (String.ofList name) = .holds (String.ofList name) := by
  rw [read_ofList hname, readEquals?_eq_none_of_absent hequals,
    readStartsWith?_eq_none_of_absent hstarts, readCompares?_eq_none hless hgreater]
  rfl

/-- The text that compares a value with a literal. -/
def equalsText (name : List Char) (quote : Char) (literal : List Char) : List Char :=
  name ++ (" == ".toList ++ quoted quote literal)

/-- A comparison with a literal, whatever the literal holds. -/
theorem read_equals {name : List Char} (hname : trim name = name) (hne : name ≠ [])
    (hequals : ¬ "==".toList <:+: name) {quote : Char} (hq : isQuote quote = true) (literal : List Char) :
    read (String.ofList (equalsText name quote literal)) =
      .equals (String.ofList name) (String.ofList literal) := by
  have htrim : trim (equalsText name quote literal) = equalsText name quote literal :=
    trim_append_append hname hne (trim_quoted hq literal) (List.cons_ne_nil _ _) " == ".toList
  have hcut : cutAtFirst? "==".toList (equalsText name quote literal) =
      some (name ++ [' '], ' ' :: quoted quote literal) := by
    have hfirst : ¬ "==".toList <:+: (name ++ [' ']) ++ "==".toList.dropLast := by
      intro hmark
      rw [List.append_assoc] at hmark
      obtain hin | hin := infix_of_infix_append_cons (by decide) hmark
      · exact hequals hin
      · exact absurd hin (by decide)
    have h := cutAtFirst?_append hfirst (' ' :: quoted quote literal)
    rwa [List.append_assoc] at h
  have hpadded : trim (name ++ [' ']) = name := by
    simpa using @trim_padded [] name [' '] rfl (by decide) hname
  have hread : readEquals? (equalsText name quote literal) =
      some (.equals (String.ofList name) (String.ofList literal)) := by
    rw [readEquals?, hcut]
    simp only [Option.bind_eq_bind, Option.bind_some, unquote?_blank_cons, unquote?_quoted hq, hpadded]
  rw [read_ofList htrim, hread]
  rfl

/-- The text that asks whether a value starts with a literal. -/
def startText (name : List Char) (quote : Char) (literal : List Char) : List Char :=
  name ++ (".startswith(".toList ++ (quoted quote literal ++ [')']))

/-- A question for the start of a text, whatever the literal holds. -/
theorem read_startsWith {name : List Char} (hname : trim name = name) (hne : name ≠ [])
    (hstarts : ¬ ".startswith(".toList <:+: name) {quote : Char} (hq : isQuote quote = true)
    (literal : List Char) :
    read (String.ofList (startText name quote literal)) =
      .startsWith (String.ofList name) (String.ofList literal) := by
  generalize htext : startText name quote literal = text
  have htrim : trim text = text := by
    rw [← htext, startText, ← List.append_assoc _ _ [')']]
    exact trim_append_append hname hne (by decide) (by decide) _
  have hlast : text.getLast? = some ')' := by
    rw [← htext, startText, ← List.append_assoc, ← List.append_assoc, List.getLast?_concat]
  have hcut : cutAtFirst? ".startswith(".toList text = some (name, quoted quote literal ++ [')']) := by
    rw [← htext]
    -- the first character of the mark does not come again in it
    exact cutAtFirst?_append (fun hmark => hstarts (infix_of_infix_append_dropLast (by decide) hmark)) _
  have hread : readStartsWith? text = some (.startsWith (String.ofList name) (String.ofList literal)) := by
    rw [readStartsWith?, hlast, hcut]
    simp only [guard, if_true, pure_bind, Option.bind_eq_bind, Option.bind_some, List.dropLast_concat,
      unquote?_quoted hq, hname]
  rw [read_ofList htrim, readEquals?_eq_none_of_getLast hlast (by decide) (by decide), hread]
  rfl

/-! ## Comparisons -/

/-- Has a text no character of an operator? -/
def HasNoOperator (cs : List Char) : Prop := '=' ∉ cs ∧ '<' ∉ cs ∧ '>' ∉ cs

theorem HasNoOperator.append {xs ys : List Char} (hx : HasNoOperator xs) (hy : HasNoOperator ys) :
    HasNoOperator (xs ++ ys) := by
  simp only [HasNoOperator, List.mem_append, not_or] at *
  exact ⟨⟨hx.1, hy.1⟩, ⟨hx.2.1, hy.2.1⟩, hx.2.2, hy.2.2⟩

/-- The operator that was written is found where it was written, and before all others. -/
theorem findSome?_cutAtFirst?_operator (side : Comparison) {before rest : List Char}
    (hbefore : HasNoOperator before) (hrest : HasNoOperator rest) :
    Comparison.order.findSome? (fun side' =>
      (cutAtFirst? side'.operator (before ++ (side.operator ++ rest))).map fun cut => (side', cut)) =
      some (side, before, rest) := by
  obtain ⟨hequal, hless, hgreater⟩ := hbefore
  obtain ⟨hequal', hless', hgreater'⟩ := hrest
  have hcut : cutAtFirst? side.operator (before ++ (side.operator ++ rest)) = some (before, rest) := by
    obtain ⟨m, mark, hop, hm, hor⟩ := exists_operator_eq_cons side
    refine cutAtFirst?_append (fun hmark => ?_) rest
    rw [hop] at hmark
    have hmem : m ∈ before := (infix_of_infix_append_dropLast hm hmark).subset List.mem_cons_self
    obtain rfl | rfl := hor
    · exact hless hmem
    · exact hgreater hmem
  -- an operator that comes earlier in the order has a character that the text lacks
  have hnone : ∀ (other : Comparison) (c : Char), c ∈ other.operator → c ∉ before → c ∉ rest →
      c ∉ side.operator → cutAtFirst? other.operator (before ++ (side.operator ++ rest)) = none := by
    intro other c hc hb hr hs
    exact cutAtFirst?_eq_none_of_not_mem hc (by simp [hb, hr, hs])
  cases side with
  | greaterOrEqual => simp [Comparison.order, hcut]
  | lessOrEqual =>
      have h := hnone .greaterOrEqual '>' (by decide) hgreater hgreater' (by decide)
      simp [Comparison.order, h, hcut]
  | greater =>
      have h₁ := hnone .greaterOrEqual '=' (by decide) hequal hequal' (by decide)
      have h₂ := hnone .lessOrEqual '=' (by decide) hequal hequal' (by decide)
      simp [Comparison.order, h₁, h₂, hcut]
  | less =>
      have h₁ := hnone .greaterOrEqual '=' (by decide) hequal hequal' (by decide)
      have h₂ := hnone .lessOrEqual '=' (by decide) hequal hequal' (by decide)
      have h₃ := hnone .greater '>' (by decide) hgreater hgreater' (by decide)
      simp [Comparison.order, h₁, h₂, h₃, hcut]

/-- The blank in front of a bound does not count. -/
theorem readBound?_blank_cons (cs : List Char) : readBound? (' ' :: cs) = readBound? cs := by
  rw [readBound?, readBound?, trim_cons_of_blank (by decide)]

theorem readBound?_plain {w : List Char} {bound : Double} (hw : trim w = w)
    (hquote : ∀ c ∈ w.head?, isQuote c = false) (h : Double.read? w = some bound) :
    readBound? w = some bound := by
  have hnone : Double.read? [] = none := by decide +kernel
  rw [readBound?, hw]
  cases w with
  | nil => exact absurd (hnone.symm.trans h) (Option.some_ne_none bound).symm
  | cons c cs => simpa [hquote c rfl] using h

theorem readBound?_quoted {quote : Char} (hq : isQuote quote = true) {w : List Char} {bound : Double}
    (h : Double.read? w = some bound) : readBound? (quoted quote w) = some bound := by
  have hunquote : unquote? (quote :: (w ++ [quote])) = some w := unquote?_quoted hq w
  rw [readBound?, trim_quoted hq]
  simpa [quoted, hq, hunquote] using h

/-- The text that compares a value with a bound, `w` being the bound as it is written. -/
def comparisonText (name : List Char) (side : Comparison) (w : List Char) : List Char :=
  (name ++ [' ']) ++ (side.operator ++ ([' '] ++ w))

/-- In a comparison with a bound there is one equality sign at most. -/
theorem not_infix_comparisonText {name w : List Char} (side : Comparison) (hname : '=' ∉ name)
    (hw : '=' ∉ w) : ¬ "==".toList <:+: comparisonText name side w := by
  intro hmark
  have htwo : 2 ≤ (comparisonText name side w).count '=' := hmark.sublist.count_le '='
  have hcount : (comparisonText name side w).count '=' = side.operator.count '=' := by
    simp [comparisonText, List.count_eq_zero_of_not_mem hname, List.count_eq_zero_of_not_mem hw]
  have hone : side.operator.count '=' ≤ 1 := by
    cases side <;> decide
  omega

/-- A comparison with a bound. -/
theorem read_compares (side : Comparison) {name w : List Char} (hname : trim name = name)
    (hne : name ≠ []) (hnameFree : HasNoOperator name) (hw : trim w = w) (hwFree : HasNoOperator w)
    (hlast : w.getLast? ≠ some ')') {bound : Double} (hbound : readBound? w = some bound) :
    read (String.ofList (comparisonText name side w)) = .compares (String.ofList name) side bound := by
  have hwne : w ≠ [] := by
    rintro rfl
    contradiction
  have htrim : trim (comparisonText name side w) = comparisonText name side w := by
    have hends := trim_append_append hname hne hw hwne ([' '] ++ (side.operator ++ [' ']))
    simpa [comparisonText] using hends
  have hstarts : readStartsWith? (comparisonText name side w) = none := by
    refine readStartsWith?_eq_none_of_getLast ?_
    rw [comparisonText, ← List.append_assoc, ← List.append_assoc, List.getLast?_append_of_ne_nil _ hwne]
    exact hlast
  have hread : readCompares? (comparisonText name side w) =
      some (.compares (String.ofList name) side bound) := by
    have hblank : HasNoOperator [' '] := by
      simp [HasNoOperator]
    have hpadded : trim (name ++ [' ']) = name := by
      simpa using @trim_padded [] name [' '] rfl (by decide) hname
    rw [readCompares?, comparisonText,
      findSome?_cutAtFirst?_operator side (hnameFree.append hblank) (hblank.append hwFree)]
    simp only [Option.bind_eq_bind, Option.bind_some, hpadded, List.singleton_append, readBound?_blank_cons,
      hbound, Option.map_some]
  rw [read_ofList htrim, readEquals?_eq_none_of_absent (not_infix_comparisonText side hnameFree.1 hwFree.1),
    hstarts, hread]
  rfl

/-! ## Bounds as they were written -/

/-- The ways to write a bound: as it is, or between quotes. -/
inductive IsBoundText (w : List Char) : List Char → Prop where
  | plain : IsBoundText w w
  | inQuotes {quote : Char} (hquote : isQuote quote = true) : IsBoundText w (quoted quote w)

/-- No quote, operator or parenthesis stands in the text of a number. -/
theorem not_mem_of_read? {w : List Char} {bound : Double} (h : Double.read? w = some bound) {c : Char}
    (hc : c ∈ w) : c ∉ ['\'', '"', '=', '<', '>', ')'] := by
  intro hmem
  have hmarks : ['\'', '"', '=', '<', '>', ')'].all
      (fun d => !isPadding (plainChar d) && !isNumeralChar (plainChar d)) = true := by decide
  have hmark := List.all_eq_true.mp hmarks c hmem
  obtain hpadding | hnumeral := Double.isNumeralChar_of_read? h hc
  · simp [hpadding] at hmark
  · simp [hnumeral] at hmark

theorem hasNoOperator_of_read? {w : List Char} {bound : Double} (h : Double.read? w = some bound) :
    HasNoOperator w := by
  refine ⟨fun hmem => ?_, fun hmem => ?_, fun hmem => ?_⟩ <;> exact not_mem_of_read? h hmem (by decide)

/-- A comparison with a number, in quotes or not, is one with the double that the number is read as. -/
theorem read_compares_bound (side : Comparison) {name : List Char} (hname : trim name = name)
    (hne : name ≠ []) (hfree : HasNoOperator name) {w b : List Char} (hw : trim w = w)
    (hb : IsBoundText w b) {bound : Double} (hbound : Double.read? w = some bound) :
    read (String.ofList (comparisonText name side b)) = .compares (String.ofList name) side bound := by
  have hwFree := hasNoOperator_of_read? hbound
  cases hb with
  | plain =>
      have hlast : w.getLast? ≠ some ')' := fun hlast =>
        not_mem_of_read? hbound (List.mem_of_getLast? hlast) (by decide)
      have hquote : ∀ c ∈ w.head?, isQuote c = false := by
        intro c hc
        have hmem := not_mem_of_read? hbound (List.mem_of_mem_head? hc)
        rw [isQuote, decide_eq_false_iff_not]
        rintro (rfl | rfl) <;> exact hmem (by decide)
      exact read_compares side hname hne hfree hw hwFree hlast (readBound?_plain hw hquote hbound)
  | @inQuotes quote hquote =>
      have hquotes : HasNoOperator [quote] := by
        obtain rfl | rfl := of_decide_eq_true hquote <;> simp [HasNoOperator]
      have hlast : (quoted quote w).getLast? ≠ some ')' := by
        rw [getLast?_quoted]
        obtain rfl | rfl := of_decide_eq_true hquote <;> decide
      exact read_compares side hname hne hfree (trim_quoted hquote w)
        (hquotes.append (hwFree.append hquotes)) hlast (readBound?_quoted hquote hbound)

/-! ## The four forms -/

/-- **Reading conditions.**  A comparison of a name with a literal, a question for the start of its text, a comparison
with a number and the name alone are read as what was written, unless something in the name itself is taken for the
operator. -/
theorem read_written {name : List Char} (hname : trim name = name) (hne : name ≠ []) :
    (¬ "==".toList <:+: name → ∀ quote, isQuote quote = true → ∀ literal,
      read (String.ofList (equalsText name quote literal)) =
        .equals (String.ofList name) (String.ofList literal)) ∧
    (¬ ".startswith(".toList <:+: name → ∀ quote, isQuote quote = true → ∀ literal,
      read (String.ofList (startText name quote literal)) =
        .startsWith (String.ofList name) (String.ofList literal)) ∧
    (HasNoOperator name → ∀ side w bound, trim w = w → Double.read? w = some bound →
      ∀ b, IsBoundText w b →
        read (String.ofList (comparisonText name side b)) = .compares (String.ofList name) side bound) ∧
    (¬ "==".toList <:+: name → ¬ ".startswith(".toList <:+: name → '<' ∉ name → '>' ∉ name →
      read (String.ofList name) = .holds (String.ofList name)) := by
  refine ⟨?_, ?_, ?_, read_holds hname⟩
  · intro hequals quote hq literal
    exact read_equals hname hne hequals hq literal
  · intro hstarts quote hq literal
    exact read_startsWith hname hne hstarts hq literal
  · intro hfree side w bound hw hbound b hb
    exact read_compares_bound side hname hne hfree hw hb hbound

/-- Each form with the marks of others in its name or in its literal. -/
theorem read_written_nested :
    read "a >= b == 'c == \"d\".startswith('e')'" = .equals "a >= b" "c == \"d\".startswith('e')" ∧
      read "x == 'y'.startswith(\")>='\")" = .startsWith "x == 'y'" ")>='" ∧
      read "n <= \"-1_0.5e1\"" = .compares "n" .lessOrEqual (Double.ofFraction true 105 1) ∧
      read "it's (=)" = .holds "it's (=)" := by
  have hequals := (@read_written "a >= b".toList (by decide +kernel) (by decide)).1 (by decide +kernel)
    '\'' (by decide) "c == \"d\".startswith('e')".toList
  have hstarts := (@read_written "x == 'y'".toList (by decide +kernel) (by decide)).2.1 (by decide +kernel)
    '"' (by decide) ")>='".toList
  have hcompares := (@read_written "n".toList (by decide) (by decide)).2.2.1
    ⟨by decide, by decide, by decide⟩ .lessOrEqual
    "-1_0.5e1".toList (Double.ofFraction true 105 1) (by decide +kernel) (by decide +kernel)
    _ (.inQuotes (by decide : isQuote '"' = true))
  have hholds := (@read_written "it's (=)".toList (by decide +kernel) (by decide)).2.2.2 (by decide +kernel)
    (by decide +kernel) (by decide) (by decide)
  exact ⟨hequals, hstarts, hcompares, hholds⟩

end Condition

end ColumnLabel
