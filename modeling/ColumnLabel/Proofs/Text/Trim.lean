import ColumnLabel.Text.Blank
import Mathlib.Data.List.DropRight

/-!
# ColumnLabel.Proofs.Text.Trim

What trimming leaves, and where a text starts and ends after it.

A text is its own trimmed form exactly when it neither starts nor ends with a blank
(`trim_eq_self_iff`), and blanks around such a text are all that trimming takes away (`trim_padded`).
-/

namespace ColumnLabel.Text

/-! ## Both ends -/

theorem trimStart_append_of_blank {front : List Char} (h : isBlankText front = true) (cs : List Char) :
    trimStart (front ++ cs) = trimStart cs :=
  List.dropWhile_append_of_pos (by simpa [isBlankText] using h)

theorem trimEnd_append_of_blank {back : List Char} (h : isBlankText back = true) (cs : List Char) :
    trimEnd (cs ++ back) = trimEnd cs := by
  have hr : ∀ c ∈ back.reverse, isBlank c = true := by simpa [isBlankText] using h
  rw [trimEnd, List.reverse_append, List.dropWhile_append_of_pos hr]
  rfl

theorem trimStart_eq_self_iff {cs : List Char} :
    trimStart cs = cs ↔ ∀ c ∈ cs.head?, isBlank c = false := by
  cases cs with
  | nil => simp
  | cons c cs =>
      have hlen : (trimStart cs).length ≤ cs.length := List.length_dropWhile_le _ _
      by_cases hc : isBlank c = true
      · rw [trimStart_cons, if_pos hc]
        constructor
        · intro h
          rw [h, List.length_cons] at hlen
          omega
        · simp [hc]
      · simp [trimStart_cons, hc]

theorem trimEnd_eq_self_iff {cs : List Char} :
    trimEnd cs = cs ↔ ∀ c ∈ cs.getLast?, isBlank c = false := by
  have h : trimEnd cs = cs ↔ trimStart cs.reverse = cs.reverse := by
    rw [trimEnd, trimStart]
    constructor
    · intro he
      rw [← List.reverse_inj, List.reverse_reverse]
      exact he
    · intro he
      rw [he, List.reverse_reverse]
  rw [h, trimStart_eq_self_iff, List.head?_reverse]

/-! ## Trimmed texts -/

/-- A text keeps all its characters exactly when no blank stands at either end. -/
theorem trim_eq_self_iff {cs : List Char} :
    trim cs = cs ↔
      (∀ c ∈ cs.head?, isBlank c = false) ∧ (∀ c ∈ cs.getLast?, isBlank c = false) := by
  rw [← trimStart_eq_self_iff, ← trimEnd_eq_self_iff]
  constructor
  · intro h
    have hstart : trimStart cs = cs := by
      have hle : (trim cs).length ≤ (trimStart cs).length :=
        (List.rdropWhile_prefix isBlank (trimStart cs)).length_le
      rw [h] at hle
      exact (List.dropWhile_suffix _).eq_of_length_le hle
    refine ⟨hstart, ?_⟩
    rw [trim, hstart] at h
    exact h
  · intro hends
    obtain ⟨hstart, hend⟩ := hends
    rw [trim, hstart, hend]

/-- A trimmed text has no blank at either end.  Only the start needs an argument: what is taken away at the end
leaves it in place. -/
theorem trim_trim (cs : List Char) : trim (trim cs) = trim cs := by
  have hstart : trimStart (trimStart cs) = trimStart cs := List.dropWhile_idempotent _ _
  have hend : trimEnd (trim cs) = trim cs := by
    rw [trim, trimEnd, trimEnd, List.reverse_reverse, List.dropWhile_idempotent]
  have hboth : trimStart (trim cs) = trim cs := by
    rw [trimStart_eq_self_iff] at hstart ⊢
    obtain ⟨back, hback⟩ : trim cs <+: trimStart cs := List.rdropWhile_prefix isBlank (trimStart cs)
    intro c hc
    refine hstart c ?_
    rw [← hback, List.head?_append_of_ne_nil _ (List.ne_nil_of_mem (List.mem_of_mem_head? hc))]
    exact hc
  rw [trim, hboth, hend]

/-- Blanks around a trimmed text are all that trimming takes away. -/
theorem trim_padded {front cs back : List Char} (hf : isBlankText front = true)
    (hb : isBlankText back = true) (hcs : trim cs = cs) : trim (front ++ (cs ++ back)) = cs := by
  rw [trim, trimStart_append_of_blank hf]
  by_cases hne : cs = []
  · have hnil : trimStart back = [] := by
      simpa using trimStart_append_of_blank hb []
    rw [hne, List.nil_append, hnil, trimEnd_nil]
  · have hhead : (cs ++ back).head? = cs.head? := by
      cases cs with
      | nil => exact absurd rfl hne
      | cons c rest => rfl
    have hstart : trimStart (cs ++ back) = cs ++ back := by
      rw [trimStart_eq_self_iff, hhead]
      exact (trim_eq_self_iff.mp hcs).1
    rw [hstart, trimEnd_append_of_blank hb, trimEnd_eq_self_iff]
    exact (trim_eq_self_iff.mp hcs).2

/-- A blank in front does not count. -/
theorem trim_cons_of_blank {c : Char} (hc : isBlank c = true) (cs : List Char) : trim (c :: cs) = trim cs := by
  rw [trim, trimStart_cons, if_pos hc]
  rfl

/-- Trimmed texts at both ends keep everything between them. -/
theorem trim_append_append {front back : List Char} (hf : trim front = front) (hfne : front ≠ [])
    (hb : trim back = back) (hbne : back ≠ []) (middle : List Char) :
    trim (front ++ (middle ++ back)) = front ++ (middle ++ back) := by
  rw [trim_eq_self_iff] at hf hb ⊢
  rw [List.head?_append_of_ne_nil _ hfne, ← List.append_assoc, List.getLast?_append_of_ne_nil _ hbne]
  exact ⟨hf.1, hb.2⟩

/-- A text that does not end with a blank ends the same way after trimming. -/
theorem getLast?_trim {cs : List Char} {c : Char} (h : cs.getLast? = some c) (hc : isBlank c = false) :
    (trim cs).getLast? = some c := by
  obtain ⟨front, rfl⟩ := List.getLast?_eq_some_iff.mp h
  have hstart : ∃ front', trimStart (front ++ [c]) = front' ++ [c] := by
    rw [trimStart, List.dropWhile_append]
    split
    · exact ⟨[], by simp [hc]⟩
    · exact ⟨_, rfl⟩
  obtain ⟨front', hfront'⟩ := hstart
  have hend : trimEnd (front' ++ [c]) = front' ++ [c] := by
    rw [trimEnd_eq_self_iff]
    simpa using hc
  rw [trim, hfront', hend, List.getLast?_concat]

/-- Trimming takes away blanks only. -/
theorem mem_trimStart {c : Char} {cs : List Char} (h : c ∈ cs) (hc : isBlank c = false) :
    c ∈ trimStart cs := by
  rw [← List.takeWhile_append_dropWhile (p := isBlank) (l := cs), List.mem_append] at h
  obtain htaken | hleft := h
  · exact absurd (List.mem_takeWhile_imp htaken) (by simp [hc])
  · exact hleft

theorem mem_trim {c : Char} {cs : List Char} (h : c ∈ cs) (hc : isBlank c = false) : c ∈ trim cs := by
  have hstart : c ∈ (trimStart cs).reverse := List.mem_reverse.mpr (mem_trimStart h hc)
  exact List.mem_reverse.mpr (mem_trimStart hstart hc)

/-! ## Words -/

/-- What is not blank is in the first word or in what follows it. -/
theorem mem_of_firstWord? {c : Char} {cs word rest : List Char} (hw : firstWord? cs = some (word, rest))
    (h : c ∈ cs) (hc : isBlank c = false) : c ∈ word ∨ c ∈ rest := by
  have hstart := mem_trimStart h hc
  rw [firstWord?] at hw
  cases hs : trimStart cs with
  | nil => simp [hs] at hstart
  | cons d ds =>
      simp only [hs, Option.some.injEq, Prod.mk.injEq] at hw
      obtain ⟨rfl, rfl⟩ := hw
      rw [hs, ← List.takeWhile_append_dropWhile (p := fun c => !isBlank c) (l := d :: ds),
        List.mem_append] at hstart
      exact hstart.imp_right fun hmem => mem_trimStart hmem hc

/-- What follows the first word of a trimmed text is trimmed.  At its end it ends as the text does. -/
theorem trim_of_firstWord? {cs word rest : List Char} (hw : firstWord? (trim cs) = some (word, rest)) :
    trim rest = rest := by
  have hends := trim_eq_self_iff.mp (trim_trim cs)
  rw [firstWord?, trimStart_eq_self_iff.mpr hends.1] at hw
  cases hs : trim cs with
  | nil => simp [hs] at hw
  | cons d ds =>
      simp only [hs, Option.some.injEq, Prod.mk.injEq] at hw
      obtain ⟨_, hrest⟩ := hw
      have hstart : trimStart rest = rest := by
        rw [← hrest]
        exact List.dropWhile_idempotent _ _
      obtain ⟨front, hfront⟩ : rest <:+ trim cs := by
        rw [← hrest, hs]
        exact (List.dropWhile_suffix _).trans (List.dropWhile_suffix _)
      rw [trim_eq_self_iff]
      refine ⟨trimStart_eq_self_iff.mp hstart, fun c hc => hends.2 c ?_⟩
      rw [← hfront, List.getLast?_append_of_ne_nil _ (List.ne_nil_of_mem (List.mem_of_getLast? hc))]
      exact hc

/-- The first word ends at a blank, and what follows is taken up to its own first word. -/
theorem firstWord?_append {word : List Char} (hne : word ≠ [])
    (hword : ∀ c ∈ word, isBlank c = false) {c : Char} (hc : isBlank c = true) (cs : List Char) :
    firstWord? (word ++ c :: cs) = some (word, trimStart cs) := by
  have hstart : trimStart (word ++ c :: cs) = word ++ c :: cs := by
    rw [trimStart_eq_self_iff]
    cases word with
    | nil => exact absurd rfl hne
    | cons d rest =>
        intro e he
        have hed : d = e := by simpa using he
        rw [← hed]
        exact hword d (by simp)
  have htake : (word ++ c :: cs).takeWhile (!isBlank ·) = word := by
    rw [List.takeWhile_append_of_pos (by simpa using hword)]
    simp [hc]
  have hdrop : (word ++ c :: cs).dropWhile (!isBlank ·) = c :: cs := by
    rw [List.dropWhile_append_of_pos (by simpa using hword)]
    simp [hc]
  rw [firstWord?, hstart]
  cases hw : word ++ c :: cs with
  | nil => simp at hw
  | cons d rest =>
      simp only
      rw [← hw, htake, hdrop, trimStart_cons, if_pos hc]

end ColumnLabel.Text
