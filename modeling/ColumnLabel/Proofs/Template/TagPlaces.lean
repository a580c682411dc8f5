import ColumnLabel.Proofs.Template.Tokens
import ColumnLabel.Proofs.Text.Marks

/-!
# ColumnLabel.Proofs.Template.TagPlaces

The places of the tags of a template.

Any `{%` and `%}` that belong together could be the marks of a tag.  The main statement is that the scan finds exactly
those of them that say a directive between them, from left to right and none twice (`mem_tagPlaces_iff_isInnermost`).  A
`{%` that shares its `%` with the closing mark of a tag never opens another one: what follows it starts with a `}`, and
no directive holds one.
-/

namespace ColumnLabel

open Text

/-- A tag of a text, with the places at which its two marks start. -/
structure TagPlace where
  directive : Directive
  opening : Nat
  closing : Nat
  deriving DecidableEq, Repr

/-- The condition of a tag is trimmed and not empty, and holds no character of a closing mark. -/
theorem Directive.isCondition_of_read? {inner : List Char} {d : Directive} (h : read? inner = some d) :
    ∀ condition ∈ d.condition?, IsCondition condition := by
  obtain ⟨rfl, _⟩ | ⟨rfl, _⟩ | ⟨keyword, condition, hword, hne, hpercent, hbrace, hkeyword⟩ :=
    words_of_read? h
  · simp [condition?]
  · simp [condition?]
  · have hcondition : IsCondition (String.ofList condition) := by
      refine ⟨?_, ?_, by simpa using hpercent, by simpa using hbrace⟩
      · simpa [← String.toList_inj] using hne
      · rw [trimmed, String.toList_ofList, trim_of_firstWord? hword]
    obtain ⟨rfl, _⟩ | ⟨rfl, _⟩ := hkeyword <;> simpa [condition?] using hcondition

namespace Token

variable {cs : List Char} {p : TagPlace}

/-- The places of the marks of a token that starts at some place, if it is a tag. -/
def tagPlace? : Nat × Token → Option TagPlace
  | (_, .text _) => none
  | (i, .tag d raw) => some ⟨d, i, i + (raw.length - 2)⟩

/-- The tags of a text at their places, in order. -/
def tagPlaces (cs : List Char) : List TagPlace := (placed source 0 (lex cs)).filterMap tagPlace?

theorem mem_tagPlaces_iff_mem_placed : p ∈ tagPlaces cs ↔
    ∃ raw, (p.opening, tag p.directive raw) ∈ placed source 0 (lex cs) ∧
      p.closing = p.opening + (raw.length - 2) := by
  rw [tagPlaces, List.mem_filterMap]
  constructor
  · intro h
    obtain ⟨⟨i, t⟩, hplaced, hplace⟩ := h
    cases t with
    | text chars => contradiction
    | tag d raw =>
        obtain rfl := Option.some.inj hplace
        exact ⟨raw, hplaced, rfl⟩
  · intro h
    obtain ⟨raw, hplaced, hclosing⟩ := h
    exact ⟨_, hplaced, by rw [tagPlace?, ← hclosing]⟩

/-! ## Tags and the text around them -/

/-- Where a tag is among the tokens it parts the text, and where it parts the text it is among the tokens. -/
theorem mem_placed_lex_iff {i : Nat} {d : Directive} {raw : List Char} :
    (i, tag d raw) ∈ placed source 0 (lex cs) ↔
      ∃ before after, cs = before ++ (raw ++ after) ∧ i = before.length ∧ d.IsTag raw := by
  constructor
  · intro h
    obtain ⟨before, after, hlex, hi⟩ := mem_placed_iff.mp h
    have hmem : tag d raw ∈ lex cs := by simp [hlex]
    have hsources := sources_lex cs
    rw [hlex, sources_append, sources_cons, source_tag] at hsources
    refine ⟨sources before, sources after, hsources.symm, ?_, isTag_of_mem_scan hmem⟩
    rw [hi, sources, ← List.flatMap_def, Nat.zero_add]
  · intro h
    obtain ⟨before, after, rfl, rfl, htag⟩ := h
    rw [lex_append_isTag htag, mem_placed_iff]
    refine ⟨lex before, lex after, rfl, ?_⟩
    rw [List.flatMap_def, ← sources, sources_lex, Nat.zero_add]

/-- The tags of a text, each at the place where it parts the text. -/
theorem mem_tagPlaces_iff_exists_eq : p ∈ tagPlaces cs ↔ ∃ before inner after,
    cs = before ++ (['{', '%'] ++ (inner ++ (['%', '}'] ++ after))) ∧ p.opening = before.length ∧
      p.closing = p.opening + 2 + inner.length ∧ Directive.read? inner = some p.directive := by
  rw [mem_tagPlaces_iff_mem_placed]
  constructor
  · intro h
    obtain ⟨raw, hplaced, hclosing⟩ := h
    obtain ⟨before, after, rfl, hopening, inner, rfl, hread⟩ := mem_placed_lex_iff.mp hplaced
    refine ⟨before, inner, after, by simp, hopening, ?_, hread⟩
    simp only [List.length_cons, List.length_append, List.length_nil] at hclosing
    omega
  · intro h
    obtain ⟨before, inner, after, rfl, hopening, hclosing, hread⟩ := h
    refine ⟨'{' :: '%' :: (inner ++ ['%', '}']), mem_placed_lex_iff.mpr ?_, ?_⟩
    · exact ⟨before, after, by simp, hopening, inner, rfl, hread⟩
    · simp only [List.length_cons, List.length_append, List.length_nil]
      omega

/-- The marks of a tag belong together: what says a directive holds no character of a closing mark, so neither mark
starts in it. -/
theorem isInnermost_of_read? {inner : List Char} {d : Directive} (h : Directive.read? inner = some d)
    (before after : List Char) :
    IsInnermost ['{', '%'] ['%', '}'] (before ++ (['{', '%'] ++ (inner ++ (['%', '}'] ++ after))))
      before.length (before.length + 2 + inner.length) := by
  obtain ⟨hpercent, hbrace⟩ := Directive.not_mem_of_read? h
  refine (isInnermost_iff (by simp) (by simp)).mpr ⟨before, inner, after, rfl, rfl, rfl, ?_, ?_⟩
  · intro hin
    rw [List.tail_cons, List.singleton_append] at hin
    obtain hp | hin := List.infix_cons_iff.mp hin
    · exact absurd (List.cons_prefix_cons.mp hp).1 (by decide)
    · exact hpercent (hin.subset (by simp))
  · intro hin
    have hmem : '}' ∈ inner ++ ['%'] := hin.subset (by simp)
    exact hbrace (by simpa using hmem)

/-- **The tags of a text** are the marks that belong together with a directive between them. -/
theorem mem_tagPlaces_iff : p ∈ tagPlaces cs ↔
    IsInnermost ['{', '%'] ['%', '}'] cs p.opening p.closing ∧
      Directive.read? (cs.extract (p.opening + 2) p.closing) = some p.directive := by
  have hextract (before inner after : List Char) :
      (before ++ (['{', '%'] ++ (inner ++ (['%', '}'] ++ after)))).extract (before.length + 2)
        (before.length + 2 + inner.length) = inner :=
    extract_between ['{', '%'] ['%', '}'] before inner after
  rw [mem_tagPlaces_iff_exists_eq]
  constructor
  · intro h
    obtain ⟨before, inner, after, rfl, hopening, hclosing, hread⟩ := h
    rw [hclosing, hopening, hextract]
    exact ⟨isInnermost_of_read? hread before after, hread⟩
  · intro h
    obtain ⟨hinnermost, hread⟩ := h
    obtain ⟨before, inner, after, rfl, hopening, hclosing, _⟩ :=
      (isInnermost_iff (by simp) (by simp)).mp hinnermost
    rw [List.length_cons, List.length_singleton] at hclosing
    rw [hclosing, hopening, hextract] at hread
    exact ⟨before, inner, after, rfl, hopening, hclosing, hread⟩

/-- The opening mark of a tag shares its `%` with no closing mark: no directive starts with a `}`. -/
theorem not_startsAt_of_mem_tagPlaces (h : p ∈ tagPlaces cs) : ¬ StartsAt ['%', '}'] cs (p.opening + 1) := by
  obtain ⟨before, inner, after, rfl, hopening, _, hread⟩ := mem_tagPlaces_iff_exists_eq.mp h
  rw [hopening, StartsAt, ← List.drop_drop, List.drop_left]
  intro hprefix
  have hbrace : ['}'] <+: inner ++ ['%', '}'] ++ after := by simpa using hprefix
  cases inner with
  | nil => simp at hbrace
  | cons c inner =>
      obtain rfl := (List.cons_prefix_cons.mp hbrace).1
      exact (Directive.not_mem_of_read? hread).2 List.mem_cons_self

/-- Each tag ends in front of the tags behind it. -/
theorem pairwise_tagPlaces (cs : List Char) :
    (tagPlaces cs).Pairwise fun p q => p.closing + 2 ≤ q.opening := by
  refine List.pairwise_filterMap.mpr ((pairwise_placed source 0 (lex cs)).imp_of_mem ?_)
  intro t u ht _ hle p hp q hq
  obtain ⟨i, t⟩ := t
  obtain ⟨j, u⟩ := u
  cases t with
  | text chars => contradiction
  | tag d raw =>
      cases u with
      | text chars => contradiction
      | tag d' raw' =>
          obtain rfl := Option.some.inj hp
          obtain rfl := Option.some.inj hq
          obtain ⟨_, _, _, _, inner, rfl, _⟩ := mem_placed_lex_iff.mp ht
          simp only [source_tag, List.length_cons, List.length_append, List.length_nil] at hle ⊢
          omega

/-! ## Exactness -/

/-- **The scan is exact**: the tags of a text are, from left to right and none over another, all the marks that belong
together with a directive between them.  None of these is left out, not even for a `{%` that would share its `%` with
the closing mark of a tag, as there is no such tag.  Every condition is trimmed and not empty, and holds neither `%`
nor `}`. -/
theorem mem_tagPlaces_iff_isInnermost (cs : List Char) :
    (∀ p : TagPlace, p ∈ tagPlaces cs ↔
      IsInnermost ['{', '%'] ['%', '}'] cs p.opening p.closing ∧
        Directive.read? (cs.extract (p.opening + 2) p.closing) = some p.directive) ∧
      (tagPlaces cs).Pairwise (fun p q => p.closing + 2 ≤ q.opening) ∧
      (∀ p ∈ tagPlaces cs, ∀ q ∈ tagPlaces cs, p.opening + 1 ≠ q.closing) ∧
      ∀ p ∈ tagPlaces cs, ∀ condition ∈ p.directive.condition?, IsCondition condition := by
  refine ⟨fun p => mem_tagPlaces_iff, pairwise_tagPlaces cs, fun p hp q hq heq => ?_, fun p hp => ?_⟩
  · exact not_startsAt_of_mem_tagPlaces hp (heq ▸ (mem_tagPlaces_iff.mp hq).1.closes)
  · exact Directive.isCondition_of_read? (mem_tagPlaces_iff.mp hp).2

/-- A `{%` in front of a tag, a `{%}` between two tags, and one whose `{` is the condition of the tag that it closes. -/
theorem mem_tagPlaces_iff_isInnermost_shared_marks :
    let cs := "\x7b% \x7b% if a %\x7d\x7b%\x7d\x7b% elif \x7b%\x7d\x7b% endif %\x7d %\x7d".toList
    tagPlaces cs = [⟨.opening "a", 3, 11⟩, ⟨.alternative "\x7b", 16, 25⟩, ⟨.closing, 27, 36⟩] ∧
      ∀ p : TagPlace, p ∈ tagPlaces cs ↔
        IsInnermost ['{', '%'] ['%', '}'] cs p.opening p.closing ∧
          Directive.read? (cs.extract (p.opening + 2) p.closing) = some p.directive := by
  intro cs
  exact ⟨by decide +kernel, (mem_tagPlaces_iff_isInnermost cs).1⟩

end Token

end ColumnLabel
