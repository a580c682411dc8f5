import ColumnLabel.Proofs.Json.Data
import ColumnLabel.Proofs.Number.Nearest
import ColumnLabel.Value.Basic
import Mathlib

/-!
# ColumnLabel.Proofs.Number.Grouped

What a label shows for a whole number.

The digits of a number are its canonical numeral (`isNumeral_digits`), and grouping parts them by commas into groups
of three, counted from the right (`isGrouped_group`).  So the commas can be taken out again, and no two integers look
the same (`grouped_inj`).  A double without a fraction is shown and compared as the integer that it is, and none is
too large for that (`Number.display_double_of_toInt?`).
-/

namespace ColumnLabel

namespace Numeral

/-! ## Digits -/

/-- The canonical digits of a number: they have its value, and no zero stands in front of another digit. -/
structure IsNumeral (n : Nat) (ds : List Char) : Prop where
  isDigit : ∀ c ∈ ds, c.isDigit = true
  value_eq : digitsValue ds = n
  ne_nil : ds ≠ []
  eq_zero : ds.head? = some '0' → ds = ['0']

theorem digits_eq_append {n : Nat} (h : 10 ≤ n) : digits n = digits (n / 10) ++ [Nat.digitChar (n % 10)] :=
  Nat.toDigits_of_base_le (by decide) h

/-- The digits of a number start with a zero only if they are nothing else. -/
theorem digits_eq_zero {n : Nat} (h : (digits n).head? = some '0') : digits n = ['0'] := by
  induction n using Nat.strongRecOn with
  | ind n ih =>
      obtain hlt | hge := Nat.lt_or_ge n 10
      · have hone : digits n = [Nat.digitChar n] := Nat.toDigits_of_lt_base hlt
        rw [hone, List.head?_cons, Option.some.injEq] at h
        rw [hone, h]
      · -- what stands in front of the last digit would be a zero alone, but its value is not zero
        rw [digits_eq_append hge, List.head?_append_of_ne_nil _ (digits_ne_nil _)] at h
        have hvalue := digitsValue_digits (n / 10)
        rw [ih (n / 10) (by omega) h] at hvalue
        have hzero : digitsValue ['0'] = 0 := rfl
        omega

theorem isNumeral_digits (n : Nat) : IsNumeral n (digits n) :=
  ⟨fun _ hc => isDigit_of_mem_digits hc, digitsValue_digits n, digits_ne_nil n, digits_eq_zero⟩

theorem length_digits_le_iff {n k : Nat} (hk : 0 < k) : (digits n).length ≤ k ↔ n < tenPow k :=
  Nat.length_toDigits_le_iff (by decide) hk

theorem isWritable_iff_length {i : Int} : isWritable i = true ↔ (digits i.natAbs).length ≤ maxDigits :=
  isWritable_iff.trans (length_digits_le_iff (by decide)).symm

/-! ## Groups -/

/-- `cs` is `ds` with commas that part it into groups: a first one of one to three characters, and three in each of the
others. -/
def IsGrouped (ds cs : List Char) : Prop :=
  ∃ (first : List Char) (groups : List (List Char)),
    1 ≤ first.length ∧ first.length ≤ 3 ∧ (∀ g ∈ groups, g.length = 3) ∧
    ds = first ++ groups.flatten ∧ cs = first ++ groups.flatMap (',' :: ·)

theorem isGrouped_self {ds : List Char} (h1 : 1 ≤ ds.length) (h3 : ds.length ≤ 3) : IsGrouped ds ds :=
  ⟨ds, [], h1, h3, by simp, by simp, by simp⟩

/-- Another group may come last. -/
theorem IsGrouped.append {ds cs g : List Char} (h : IsGrouped ds cs) (hg : g.length = 3) :
    IsGrouped (ds ++ g) (cs ++ ',' :: g) := by
  obtain ⟨first, groups, h1, h3, hgroups, rfl, rfl⟩ := h
  refine ⟨first, groups ++ [g], h1, h3, ?_, by simp, by simp⟩
  rw [List.forall_mem_append]
  exact ⟨hgroups, by simpa using hg⟩

theorem isGrouped_groupReversed {rs : List Char} (h : rs ≠ []) : IsGrouped rs.reverse (groupReversed rs).reverse := by
  fun_induction groupReversed rs with
  | case1 a b c d rest ih =>
      have hlast := (ih (List.cons_ne_nil d rest)).append (g := [c, b, a]) rfl
      simpa using hlast
  | case2 short hshort =>
      refine isGrouped_self (List.length_pos_iff.mpr (by simpa using h)) ?_
      obtain _ | ⟨a, _ | ⟨b, _ | ⟨c, _ | ⟨d, rest⟩⟩⟩⟩ := short
      · simp
      · simp
      · simp
      · simp
      · exact absurd rfl (hshort a b c d rest)

/-- Grouping puts commas between groups of three, counted from the right. -/
theorem isGrouped_group {ds : List Char} (h : ds ≠ []) : IsGrouped ds (group ds) := by
  have hgrouped := isGrouped_groupReversed (List.reverse_ne_nil_iff.mpr h)
  rwa [List.reverse_reverse] at hgrouped

theorem not_comma_of_isDigit {c : Char} (h : c.isDigit = true) : c ≠ ',' := by
  rintro rfl
  contradiction

/-- The numeral of an integer is its grouped numeral without the commas. -/
theorem filter_grouped (i : Int) : (grouped i).filter (· ≠ ',') = ofInt i := by
  have hgroup : (group (digits i.natAbs)).filter (· ≠ ',') = digits i.natAbs :=
    filter_group fun hcomma => not_comma_of_isDigit (isDigit_of_mem_digits hcomma) rfl
  rw [grouped, ofInt, signed, signed]
  split
  · rw [List.filter_cons_of_pos (by decide), hgroup]
  · exact hgroup

theorem ofInt_inj {i j : Int} (h : ofInt i = ofInt j) : i = j :=
  (ofInt_append_inj startsNoDigit_nil startsNoDigit_nil (congrArg (· ++ []) h)).1

theorem grouped_inj {i j : Int} (h : grouped i = grouped j) : i = j := by
  have hfilter := congrArg (List.filter (· ≠ ',')) h
  rw [filter_grouped, filter_grouped] at hfilter
  exact ofInt_inj hfilter

end Numeral

/-! ## Whole doubles -/

theorem twoPow_le_twoPow {j k : Nat} (h : j ≤ k) : twoPow j ≤ twoPow k :=
  Nat.pow_le_pow_right two_pos h

namespace Magnitude

theorem value_eq_natCast_iff {m : Magnitude} {n : Nat} : m.value = n ↔ m.isWhole = true ∧ m.floor = n := by
  have hden : (m.den : ℚ) ≠ 0 := by exact_mod_cast m.den_pos.ne'
  rw [value, div_eq_iff hden, isWhole, floor, beq_iff_eq]
  constructor
  · intro h
    have hnum : m.num = n * m.den := by exact_mod_cast h
    rw [hnum]
    exact ⟨Nat.mul_mod_left _ _, Nat.mul_div_cancel _ m.den_pos⟩
  · rintro ⟨hmod, rfl⟩
    exact_mod_cast (Nat.div_mul_cancel (Nat.dvd_of_mod_eq_zero hmod)).symm

theorem exponent_le (m : Magnitude) : m.exponent ≤ 971 := by
  have hlt : m.ordinal < 2047 * run := m.lt_count
  have hdiv : m.ordinal / run < 2047 := Nat.div_lt_of_lt_mul (by rwa [Nat.mul_comm])
  unfold exponent
  split <;> omega

/-- No magnitude reaches `2 ^ 1024`. -/
theorem floor_lt (m : Magnitude) : m.floor < twoPow 1024 := by
  have hexp := m.exponent_le
  calc m.floor ≤ m.num := Nat.div_le_self _ _
    _ < 2 * run * twoPow m.exponent.toNat := Nat.mul_lt_mul_of_pos_right m.significand_lt (twoPow_pos _)
    _ ≤ 2 * run * twoPow 971 := Nat.mul_le_mul_left _ (twoPow_le_twoPow (by omega))
    _ = twoPow 1024 := by decide +kernel

end Magnitude

namespace Double

/-- The doubles without a fraction are those that stand for an integer. -/
theorem toInt?_eq_some_iff {x : Double} {i : Int} : x.toInt? = some i ↔ x.value? = some (i : ℚ) := by
  obtain _ | _ | ⟨negative, m⟩ := x
  · simp [toInt?, value?]
  · simp [toInt?, value?]
  rw [value?, Option.some.injEq, toInt?]
  constructor
  · intro h
    split at h
    · next hwhole =>
      have hvalue : m.value = m.floor := Magnitude.value_eq_natCast_iff.mpr ⟨hwhole, rfl⟩
      obtain rfl := Option.some.inj h
      rw [hvalue]
      cases negative <;> simp [signed]
    · contradiction
  · intro h
    have hnonneg := m.value_nonneg
    have hvalue : m.value = i.natAbs := by
      rw [Nat.cast_natAbs, Int.cast_abs, ← h]
      cases negative <;> simp [signed, abs_of_nonneg hnonneg]
    obtain ⟨hwhole, hfloor⟩ := Magnitude.value_eq_natCast_iff.mp hvalue
    rw [if_pos hwhole, hfloor, Option.some.injEq]
    rw [hvalue] at h
    cases negative with
    | false => exact Int.cast_injective (α := ℚ) (by simpa [signed] using h)
    | true => exact Int.cast_injective (α := ℚ) (by simpa [signed] using h)

theorem twoPow_le_tenPow : twoPow 1024 ≤ tenPow Numeral.maxDigits := by decide +kernel

/-- An integer that is a double has a numeral. -/
theorem isWritable_of_toInt? {x : Double} {i : Int} (h : x.toInt? = some i) : Numeral.isWritable i = true := by
  obtain _ | _ | ⟨negative, m⟩ := x
  · contradiction
  · contradiction
  have hfloor := m.floor_lt.trans_le twoPow_le_tenPow
  -- the bound stays closed: nothing may compute the power
  refine Numeral.isWritable_iff.mpr ?_
  generalize tenPow Numeral.maxDigits = bound at hfloor ⊢
  rw [toInt?] at h
  split at h
  · obtain rfl := Option.some.inj h
    cases negative with
    | true => rwa [if_pos rfl, Int.natAbs_neg, Int.natAbs_natCast]
    | false => rwa [if_neg (by decide), Int.natAbs_natCast]
  · contradiction

end Double

namespace Number

theorem display_int {i : Int} (h : Numeral.isWritable i = true) : display (.int i) = .ok (Numeral.grouped i) := by
  simp only [display, h, if_true]

theorem asText_int {i : Int} (h : Numeral.isWritable i = true) : asText (.int i) = .ok (Numeral.ofInt i) :=
  writeInt_of_isWritable h

/-- A double without a fraction is shown, and compared, as the integer that it is. -/
theorem display_double_of_toInt? {x : Double} {i : Int} (h : x.toInt? = some i) :
    display (.double x) = display (.int i) ∧ asText (.double x) = asText (.int i) := by
  obtain _ | _ | ⟨negative, m⟩ := x
  · contradiction
  · contradiction
  have hwritable := Double.isWritable_of_toInt? h
  have hdisplay : display (.double (.finite negative m)) = .ok (Numeral.grouped i) := by
    rw [display, h]
  have hasText : asText (.double (.finite negative m)) = .ok (Numeral.ofInt i) := by
    rw [asText, h]
  exact ⟨hdisplay.trans (display_int hwritable).symm, hasText.trans (asText_int hwritable).symm⟩

end Number

end ColumnLabel
