import ColumnLabel.Proofs.Template.Tags

/-!
# ColumnLabel.Proofs.Template.Tokens

Directives as they are written, and how the scan of a template meets them.

`Directive.tag` writes a directive with one blank inside each mark.  The scan takes a text without a
`{%` as it is, also where it ends in a `{` or holds a `%}` (`scan_append_tag`), and a written tag for the
directive that it says (`read?_words`).
-/

namespace ColumnLabel

open Text

/-! ## Written directives -/

/-- A condition that a tag can say: trimmed, not empty, and without the characters of the marks. -/
structure IsCondition (condition : String) : Prop where
  ne_empty : condition ≠ ""
  trimmed : trimmed condition = condition
  no_percent : '%' ∉ condition.toList
  no_brace : '}' ∉ condition.toList

instance (condition : String) : Decidable (IsCondition condition) :=
  decidable_of_iff
    (condition ≠ "" ∧ Text.trimmed condition = condition ∧ '%' ∉ condition.toList ∧
      '}' ∉ condition.toList)
    ⟨fun ⟨hne, ht, hp, hb⟩ => ⟨hne, ht, hp, hb⟩,
      fun h => ⟨h.ne_empty, h.trimmed, h.no_percent, h.no_brace⟩⟩

namespace Directive

/-- The condition of a directive, if it has one. -/
def condition? : Directive → Option String
  | opening condition | alternative condition => some condition
  | otherwise | closing => none

/-- What a directive says. -/
def words : Directive → List Char
  | opening condition => 'i' :: 'f' :: ' ' :: condition.toList
  | alternative condition => 'e' :: 'l' :: 'i' :: 'f' :: ' ' :: condition.toList
  | otherwise => "else".toList
  | closing => "endif".toList

/-- A directive as a tag, with one blank inside each mark. -/
def tag (d : Directive) : List Char := '{' :: '%' :: ' ' :: (d.words ++ [' ', '%', '}'])

theorem toList_ne_nil {condition : String} (h : IsCondition condition) : condition.toList ≠ [] := by
  intro hnil
  exact h.ne_empty (by rw [← String.toList_inj, hnil]; rfl)

theorem trim_toList {condition : String} (h : IsCondition condition) :
    trim condition.toList = condition.toList := by
  rw [← toList_trimmed, h.trimmed]

/-- A keyword in front of a condition, one blank between them, is trimmed and falls apart again. -/
theorem read_keyword (keyword : List Char) (hne : keyword ≠ []) (hk : ∀ c ∈ keyword, isBlank c = false)
    {condition : String} (h : IsCondition condition) :
    trim (' ' :: ((keyword ++ ' ' :: condition.toList) ++ [' '])) = keyword ++ ' ' :: condition.toList ∧
      firstWord? (keyword ++ ' ' :: condition.toList) = some (keyword, condition.toList) := by
  have hends := trim_eq_self_iff.mp (trim_toList h)
  have hlast : (keyword ++ ' ' :: condition.toList).getLast? = condition.toList.getLast? := by
    have hcons : (' ' :: condition.toList).getLast? = condition.toList.getLast? :=
      List.getLast?_cons_of_ne_nil (toList_ne_nil h)
    rw [List.getLast?_append, hcons]
    cases hl : condition.toList.getLast? with
    | none => exact absurd (List.getLast?_eq_none_iff.mp hl) (toList_ne_nil h)
    | some d => rfl
  have hself : trim (keyword ++ ' ' :: condition.toList) = keyword ++ ' ' :: condition.toList := by
    rw [trim_eq_self_iff, hlast]
    refine ⟨?_, hends.2⟩
    cases keyword with
    | nil => exact absurd rfl hne
    | cons c rest =>
        intro d hd
        have hcd : c = d := by simpa using hd
        rw [← hcd]
        exact hk c (by simp)
  constructor
  · have hblank : isBlankText [' '] = true := by decide
    exact trim_padded hblank hblank hself
  · have hstart : trimStart condition.toList = condition.toList := trimStart_eq_self_iff.mpr hends.1
    rw [firstWord?_append hne hk (by decide), hstart]

/-- A directive is read off what it says, with blanks around it. -/
theorem read?_words (d : Directive) (h : ∀ condition ∈ d.condition?, IsCondition condition) :
    read? (' ' :: (d.words ++ [' '])) = some d := by
  cases d with
  | opening condition =>
      have hc : IsCondition condition := h condition rfl
      obtain ⟨ht, hw⟩ := read_keyword ['i', 'f'] (by decide) (by simp [isBlank]) hc
      simp only [read?, words, List.cons_append, List.nil_append] at ht hw ⊢
      simp [ht, hw, toList_ne_nil hc, hc.no_percent, hc.no_brace]
  | alternative condition =>
      have hc : IsCondition condition := h condition rfl
      obtain ⟨ht, hw⟩ := read_keyword ['e', 'l', 'i', 'f'] (by decide) (by simp [isBlank]) hc
      simp only [read?, words, List.cons_append, List.nil_append] at ht hw ⊢
      simp [ht, hw, toList_ne_nil hc, hc.no_percent, hc.no_brace]
  | otherwise => decide
  | closing => decide

/-- A written directive is a well-formed tag. -/
theorem isTag_tag (d : Directive) (h : ∀ condition ∈ d.condition?, IsCondition condition) :
    d.IsTag d.tag :=
  ⟨' ' :: (d.words ++ [' ']), by simp [tag], read?_words d h⟩

end Directive

/-! ## The scan of a written template -/

namespace Token

/-- A text without a `{%` is text up to the end. -/
theorem scan_none_of_no_open {cs : List Char} (h : ¬ ['{', '%'] <:+: cs) (held : List Char) :
    scan held none cs = flush (cs.reverse ++ held) [] := by
  induction cs generalizing held with
  | nil => simp [scan]
  | cons c cs ih =>
      have hcs : ¬ ['{', '%'] <:+: cs := fun hin => h (hin.trans (List.suffix_cons c cs).isInfix)
      rw [scan_none_cons (fun hp => h hp.isInfix), ih hcs]
      simp

/-- The scan takes a text without a `{%`, and a written directive after it, as they were written. -/
theorem scan_append_tag {cs : List Char} (hcs : ¬ ['{', '%'] <:+: cs) (d : Directive)
    (hd : ∀ condition ∈ d.condition?, IsCondition condition) (held rest : List Char) :
    scan held none (cs ++ (d.tag ++ rest)) =
      flush (cs.reverse ++ held) (.tag d d.tag :: scan [] none rest) := by
  rw [scan_append_isTag (d.isTag_tag hd), scan_none_of_no_open hcs, ← flush_append, List.nil_append]

end Token

end ColumnLabel
