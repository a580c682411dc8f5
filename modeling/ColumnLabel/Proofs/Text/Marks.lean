import Mathlib.Data.List.Infix

/-!
# ColumnLabel.Proofs.Text.Marks

Places in a text, and the marks that stand there.

An opening and a closing mark belong together when no closing mark starts between them and no later opening mark ends
in front of the closing one: the text that they enclose is innermost (`IsInnermost`).  Said without places, the text
between them holds no mark, not even one that shares characters with the marks around it (`isInnermost_iff`).

A text that was taken apart into pieces gives each piece its place (`placed`).  The pieces stand one behind the other
(`pairwise_placed`).
-/

namespace ColumnLabel.Text

variable {mark opening closing cs : List Char} {i j s e : Nat}

/-! ## Marks at places -/

/-- Does a mark start at a place of the text? -/
def StartsAt (mark cs : List Char) (i : Nat) : Prop := mark <+: cs.drop i

instance : Decidable (StartsAt mark cs i) := inferInstanceAs (Decidable (mark <+: cs.drop i))

theorem startsAt_length (before mark after : List Char) :
    StartsAt mark (before ++ (mark ++ after)) before.length := by
  simp [StartsAt]

/-- A mark at a place parts the text. -/
theorem StartsAt.exists_eq (h : StartsAt mark cs i) (hne : mark ≠ []) :
    ∃ before after, cs = before ++ (mark ++ after) ∧ before.length = i := by
  obtain ⟨after, hafter⟩ := h
  have hi : i < cs.length := by
    by_contra hle
    rw [List.drop_eq_nil_of_le (Nat.le_of_not_lt hle), List.append_eq_nil_iff] at hafter
    exact hne hafter.1
  exact ⟨cs.take i, after, by rw [hafter, List.take_append_drop], List.length_take_of_le hi.le⟩

/-- The text from one place up to another one, where the text is parted at both. -/
theorem extract_of_eq (before after : List Char) {middle : List Char}
    (h : cs = before ++ (middle ++ after)) (hi : i = before.length)
    (hj : j = before.length + middle.length) : cs.extract i j = middle := by
  rw [h, hi, hj, List.extract, List.drop_left, Nat.add_sub_cancel_left, List.take_left]

/-- The text between two marks. -/
theorem extract_between (opening closing before inner after : List Char) :
    (before ++ (opening ++ (inner ++ (closing ++ after)))).extract (before.length + opening.length)
      (before.length + opening.length + inner.length) = inner :=
  extract_of_eq (before ++ opening) (closing ++ after) (by simp) (by simp) (by simp)

/-- A mark stands between two places exactly when it starts at one of those from which it fits. -/
theorem infix_extract_iff (h : i ≤ j) :
    mark <:+: cs.extract i j ↔ ∃ k, i ≤ k ∧ k + mark.length ≤ j ∧ StartsAt mark cs k := by
  constructor
  · intro hin
    obtain ⟨before, after, heq⟩ := hin
    have hlen := congrArg List.length heq
    simp only [List.length_append, List.length_take, List.length_drop] at hlen
    refine ⟨i + before.length, by omega, by omega, ?_⟩
    have hpre : before ++ mark <+: cs.drop i :=
      (List.prefix_append _ after).trans (heq ▸ List.take_prefix _ _)
    obtain ⟨rest, hrest⟩ := hpre
    rw [StartsAt, ← List.drop_drop, ← hrest, List.append_assoc, List.drop_left]
    exact List.prefix_append mark rest
  · intro hstart
    obtain ⟨k, hik, hkj, hk⟩ := hstart
    have hpre : mark <+: (cs.drop k).take (j - k) := List.prefix_take_iff.mpr ⟨hk, by omega⟩
    have hdrop : (cs.extract i j).drop (k - i) = (cs.drop k).take (j - k) := by
      rw [List.drop_take, List.drop_drop, show j - i - (k - i) = j - k by omega,
        show i + (k - i) = k by omega]
    exact (hdrop ▸ hpre).isInfix.trans (List.drop_suffix _ _).isInfix

/-! ## Innermost texts -/

/-- An opening mark at `s` and a closing mark at `e` behind it that belong together: between them no closing mark
starts, and no opening mark that starts behind `s` ends in front of `e`. -/
structure IsInnermost (opening closing cs : List Char) (s e : Nat) : Prop where
  opens : StartsAt opening cs s
  closes : StartsAt closing cs e
  le : s + opening.length ≤ e
  no_closing : ∀ i, s + opening.length ≤ i → i < e → ¬ StartsAt closing cs i
  no_opening : ∀ i, s < i → i + opening.length ≤ e → ¬ StartsAt opening cs i

/-- Two marks, one behind the other, part the text. -/
theorem exists_eq_of_startsAt (hopens : StartsAt opening cs s) (hcloses : StartsAt closing cs e)
    (ho : opening ≠ []) (hc : closing ≠ []) (hle : s + opening.length ≤ e) : ∃ before inner after,
      cs = before ++ (opening ++ (inner ++ (closing ++ after))) ∧ s = before.length ∧
        e = s + opening.length + inner.length := by
  obtain ⟨before, rest, rfl, rfl⟩ := hopens.exists_eq ho
  have hrest : StartsAt closing rest (e - (before.length + opening.length)) := by
    have hdrop : (before ++ (opening ++ rest)).drop e = rest.drop (e - (before.length + opening.length)) := by
      rw [← List.append_assoc, ← List.length_append, List.drop_append,
        List.drop_eq_nil_of_le (by simpa using hle), List.nil_append]
    rwa [StartsAt, hdrop] at hcloses
  obtain ⟨inner, after, rfl, hlen⟩ := hrest.exists_eq hc
  exact ⟨before, inner, after, rfl, rfl, by omega⟩

/-- Marks belong together exactly when neither of them stands in the text between them, also counting what it could
share with the mark around it. -/
theorem isInnermost_iff (ho : opening ≠ []) (hc : closing ≠ []) :
    IsInnermost opening closing cs s e ↔ ∃ before inner after,
      cs = before ++ (opening ++ (inner ++ (closing ++ after))) ∧ s = before.length ∧
        e = s + opening.length + inner.length ∧
        ¬ opening <:+: opening.tail ++ inner ∧ ¬ closing <:+: inner ++ closing.dropLast := by
  have hopos : 0 < opening.length := List.length_pos_iff.mpr ho
  have hcpos : 0 < closing.length := List.length_pos_iff.mpr hc
  -- the two texts in which a mark must not stand, by their places
  have htail (before inner after : List Char) :
      (before ++ (opening ++ (inner ++ (closing ++ after)))).extract (before.length + 1)
        (before.length + opening.length + inner.length) = opening.tail ++ inner := by
    obtain ⟨c, rest, rfl⟩ := List.exists_cons_of_ne_nil ho
    refine extract_of_eq (before ++ [c]) (closing ++ after) (by simp) (by simp) ?_
    simp only [List.length_append, List.length_cons, List.length_nil, List.tail_cons]
    omega
  have hdrop (before inner after : List Char) :
      (before ++ (opening ++ (inner ++ (closing ++ after)))).extract (before.length + opening.length)
        (before.length + opening.length + inner.length + (closing.length - 1)) =
          inner ++ closing.dropLast := by
    refine extract_of_eq (before ++ opening) (closing.getLast hc :: after) ?_ (by simp)
      (by simp [Nat.add_assoc])
    nth_rewrite 1 [← List.dropLast_append_getLast hc]
    simp
  constructor
  · intro h
    obtain ⟨before, inner, after, rfl, rfl, rfl⟩ := exists_eq_of_startsAt h.opens h.closes ho hc h.le
    refine ⟨before, inner, after, rfl, rfl, rfl, ?_, ?_⟩
    · rw [← htail before inner after, infix_extract_iff (by omega)]
      intro hin
      obtain ⟨k, hk, hfit, hstart⟩ := hin
      exact h.no_opening k (by omega) hfit hstart
    · rw [← hdrop before inner after, infix_extract_iff (by omega)]
      intro hin
      obtain ⟨k, hk, hfit, hstart⟩ := hin
      exact h.no_closing k hk (by omega) hstart
  · intro h
    obtain ⟨before, inner, after, rfl, rfl, rfl, hopen, hclose⟩ := h
    rw [← htail before inner after, infix_extract_iff (by omega)] at hopen
    rw [← hdrop before inner after, infix_extract_iff (by omega)] at hclose
    refine ⟨startsAt_length _ _ _, ?_, by omega, fun k hk hke hstart => ?_, fun k hk hke hstart => ?_⟩
    · have hstart := startsAt_length (before ++ (opening ++ inner)) closing after
      simpa [Nat.add_assoc] using hstart
    · exact hclose ⟨k, hk, by omega, hstart⟩
    · exact hopen ⟨k, by omega, hke, hstart⟩

/-! ## Pieces at their places -/

section

variable {α : Type} {source : α → List Char} {pos : Nat} {a : α} {as : List α}

/-- Pieces of a text in order, each with the place at which it starts; the first one starts at `pos`. -/
def placed (source : α → List Char) (pos : Nat) : List α → List (Nat × α)
  | [] => []
  | a :: as => (pos, a) :: placed source (pos + (source a).length) as

/-- A piece starts where the pieces in front of it end. -/
theorem mem_placed_iff : (i, a) ∈ placed source pos as ↔
    ∃ before after, as = before ++ a :: after ∧ i = pos + (before.flatMap source).length := by
  induction as generalizing pos with
  | nil => simp [placed]
  | cons b as ih =>
      rw [placed, List.mem_cons, ih]
      constructor
      · intro h
        obtain heq | ⟨before, after, rfl, rfl⟩ := h
        · obtain ⟨rfl, rfl⟩ := Prod.mk.inj heq
          exact ⟨[], as, rfl, rfl⟩
        · exact ⟨b :: before, after, rfl, by simp [Nat.add_assoc]⟩
      · intro h
        obtain ⟨before, after, heq, rfl⟩ := h
        cases before with
        | nil =>
            obtain ⟨rfl, rfl⟩ := List.cons.inj heq
            exact .inl rfl
        | cons c before =>
            obtain ⟨rfl, rfl⟩ := List.cons.inj heq
            exact .inr ⟨before, after, rfl, by simp [Nat.add_assoc]⟩

theorem exists_mem_placed (h : a ∈ as) (source : α → List Char) (pos : Nat) :
    ∃ i, (i, a) ∈ placed source pos as := by
  obtain ⟨before, after, heq⟩ := List.append_of_mem h
  exact ⟨_, mem_placed_iff.mpr ⟨before, after, heq, rfl⟩⟩

/-- Each piece ends in front of the pieces behind it. -/
theorem pairwise_placed (source : α → List Char) (pos : Nat) (as : List α) :
    (placed source pos as).Pairwise fun p q => p.1 + (source p.2).length ≤ q.1 := by
  induction as generalizing pos with
  | nil => exact .nil
  | cons a as ih =>
      refine List.pairwise_cons.mpr ⟨fun q hq => ?_, ih _⟩
      obtain ⟨_, _, _, hplace⟩ := mem_placed_iff.mp hq
      rw [hplace]
      exact Nat.le_add_right _ _

end

end ColumnLabel.Text
