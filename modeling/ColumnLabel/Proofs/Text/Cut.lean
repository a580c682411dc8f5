import ColumnLabel.Text.Search
import Mathlib.Data.List.Infix

/-!
# ColumnLabel.Proofs.Text.Cut

Where a text is cut.

A text is not cut exactly when the mark is nowhere in it (`cutAtFirst?_eq_none_iff`), and it is cut at a mark that no
earlier one comes before (`cutAtFirst?_append`).  An earlier mark may run into the one that is meant; a mark that
starts with a character of its own cannot (`infix_of_infix_append_dropLast`), and neither can one with a character in
front that it does not have (`infix_of_infix_append_cons`).
-/

namespace ColumnLabel.Text

theorem dropPrefix?_eq_none_iff {mark cs : List Char} : dropPrefix? mark cs = none ↔ ¬ mark <+: cs := by
  constructor
  · intro h hprefix
    obtain ⟨rest, rfl⟩ := hprefix
    rw [dropPrefix?_append] at h
    contradiction
  · intro h
    rw [Option.eq_none_iff_forall_ne_some]
    intro rest hrest
    exact h ⟨rest, (eq_of_dropPrefix?_eq_some hrest).symm⟩

/-- A text is cut exactly when the mark is in it. -/
theorem cutAtFirst?_eq_none_iff {mark cs : List Char} : cutAtFirst? mark cs = none ↔ ¬ mark <:+: cs := by
  constructor
  · intro h hmark
    obtain ⟨before, rest, rfl⟩ := hmark
    have hsome := isSome_cutAtFirst?_append mark before rest
    rw [h] at hsome
    contradiction
  · intro h
    rw [Option.eq_none_iff_forall_ne_some]
    intro cut hcut
    exact h ⟨cut.1, cut.2, (eq_of_cutAtFirst?_eq_some hcut).symm⟩

/-- A text that lacks a character of the mark is not cut. -/
theorem cutAtFirst?_eq_none_of_not_mem {mark cs : List Char} {c : Char} (hmark : c ∈ mark) (h : c ∉ cs) :
    cutAtFirst? mark cs = none :=
  cutAtFirst?_eq_none_iff.mpr fun hin => h (hin.subset hmark)

/-- A text is cut at a mark that is the first one, also counting the marks that would end in it. -/
theorem cutAtFirst?_append {mark before : List Char} (h : ¬ mark <:+: before ++ mark.dropLast)
    (rest : List Char) : cutAtFirst? mark (before ++ (mark ++ rest)) = some (before, rest) := by
  have hlen : 0 < mark.length := by
    rw [List.length_pos_iff]
    rintro rfl
    exact h List.nil_infix
  induction before with
  | nil =>
      have hdrop := dropPrefix?_append mark rest
      cases hm : mark ++ rest with
      | nil => rw [List.append_eq_nil_iff] at hm; simp [hm.1] at hlen
      | cons c cs =>
          rw [hm] at hdrop
          simp [cutAtFirst?, hdrop]
  | cons c before ih =>
      -- a mark at the start would fit into what precedes the end of the mark that is meant
      have hstart : dropPrefix? mark (c :: (before ++ (mark ++ rest))) = none := by
        rw [dropPrefix?_eq_none_iff]
        intro hprefix
        have hfront : c :: (before ++ mark.dropLast) <+: c :: (before ++ (mark ++ rest)) := by
          rw [List.cons_prefix_cons, List.prefix_append_right_inj]
          exact ⟨rfl, (List.dropLast_prefix mark).trans (List.prefix_append mark rest)⟩
        refine h (List.prefix_of_prefix_length_le hprefix hfront ?_).isInfix
        simp only [List.length_cons, List.length_append, List.length_dropLast]
        omega
      have hrest : ¬ mark <:+: before ++ mark.dropLast := fun hmark =>
        h (hmark.trans (List.suffix_cons c _).isInfix)
      rw [List.cons_append, cutAtFirst?, hstart]
      simp only [ih hrest, Option.map_some]

/-- A mark whose first character does not come again in it cannot run into another one. -/
theorem infix_of_infix_append_dropLast {m : Char} {mark before : List Char} (hm : m ∉ mark)
    (h : m :: mark <:+: before ++ (m :: mark).dropLast) : m :: mark <:+: before := by
  obtain hbefore | hmark | ⟨front, back, heq, hfront, hback⟩ := List.infix_append_iff.mp h
  · exact hbefore
  · have hlen := hmark.length_le
    simp only [List.length_dropLast, List.length_cons] at hlen
    omega
  · cases front with
    | nil =>
        have hlen := hback.length_le
        rw [List.nil_append] at heq
        simp only [← heq, List.length_dropLast, List.length_cons] at hlen
        omega
    | cons c front =>
        obtain ⟨rfl, htail⟩ := List.cons.inj heq
        cases back with
        | nil => rw [heq, List.append_nil]; exact hfront.isInfix
        | cons b back =>
            have hb : b = m := by
              have hprefix := hback.trans (List.dropLast_prefix (m :: mark))
              exact (List.cons_prefix_cons.mp hprefix).1
            rw [htail, hb] at hm
            simp at hm

/-- A mark stands on one side of a character that it does not have. -/
theorem infix_of_infix_append_cons {c : Char} {mark before rest : List Char} (hc : c ∉ mark)
    (h : mark <:+: before ++ c :: rest) : mark <:+: before ∨ mark <:+: rest := by
  have hstart : ∀ {back : List Char}, c ∉ back → back <+: c :: rest → back = [] := by
    intro back hback hprefix
    cases back with
    | nil => rfl
    | cons b back =>
        obtain ⟨rfl, -⟩ := List.cons_prefix_cons.mp hprefix
        exact absurd List.mem_cons_self hback
  obtain hbefore | hrest | ⟨front, back, rfl, hfront, hback⟩ := List.infix_append_iff.mp h
  · exact .inl hbefore
  · obtain hprefix | hrest := List.infix_cons_iff.mp hrest
    · rw [hstart hc hprefix]
      exact .inl List.nil_infix
    · exact .inr hrest
  · rw [List.mem_append, not_or] at hc
    rw [hstart hc.2 hback, List.append_nil]
    exact .inl hfront.isInfix

end ColumnLabel.Text
