import ColumnLabel.Proofs.Number.Grouped
import Mathlib

/-!
# ColumnLabel.Proofs.Number.Thousandths

What a label shows for a number with a fraction.

The number is rounded to thousandths, a half to the even neighbour (`isRounded_roundDiv`), and the numeral has exactly
that value (`value_thousandths`).  Only zeros at the end of the fraction are left out, and the point with the last of
them.  It comes to the same to write three decimals always and then to cut off zeros, and after them a point, at the end
of the whole text (`rdropWhile_fraction`): the point stands between these zeros and those of the whole part.
-/

namespace ColumnLabel

/-! ## Signs -/

/-- A number other than zero is negative when its sign says so. -/
theorem Double.decide_signed_lt_zero (negative : Bool) {q : ℚ} (h : 0 ≤ q) (hne : Double.signed negative q ≠ 0) :
    decide (Double.signed negative q < 0) = negative := by
  cases negative with
  | false => exact decide_eq_false (not_lt.mpr h)
  | true =>
      have hpos : 0 < q := lt_of_le_of_ne h fun hzero => hne (by rw [← hzero, signed, if_pos rfl, neg_zero])
      exact decide_eq_true (neg_neg_of_pos hpos)

theorem Double.signed_mul (negative : Bool) (q r : ℚ) :
    Double.signed negative (q * r) = Double.signed negative q * r := by
  cases negative with
  | false => rfl
  | true => exact (neg_mul q r).symm

namespace Numeral

/-! ## Rounding -/

/-- Is `k` the integer nearest to `q`, and of two equally near ones the even one? -/
structure IsRounded (q : ℚ) (k : ℤ) : Prop where
  abs_sub_le : ∀ j : ℤ, |q - k| ≤ |q - j|
  eq_or_even : ∀ j : ℤ, |q - k| = |q - j| → j = k ∨ Even k

/-- An integer at most a half away is the nearest one, as any other is at least a half away. -/
theorem isRounded_of_abs_le {q : ℚ} {k : ℤ} (h : |q - k| ≤ 1 / 2) (heven : |q - k| = 1 / 2 → Even k) :
    IsRounded q k := by
  have hother : ∀ j : ℤ, j ≠ k → 1 - |q - k| ≤ |q - j| := by
    intro j hj
    have hstep : (1 : ℚ) ≤ |(k : ℚ) - j| := by
      exact_mod_cast Int.one_le_abs (sub_ne_zero.mpr hj.symm)
    have htriangle := abs_sub_le (k : ℚ) q j
    rw [abs_sub_comm (k : ℚ) q] at htriangle
    linarith
  constructor
  · intro j
    obtain rfl | hj := eq_or_ne j k
    · exact le_rfl
    · have hfar := hother j hj
      linarith
  · intro j heq
    obtain rfl | hj := eq_or_ne j k
    · exact .inl rfl
    · have hfar := hother j hj
      exact .inr (heven (by linarith))

/-- A quotient half way between two whole numbers is rounded to the even one. -/
theorem even_roundDiv {n d : Nat} (hd : 0 < d) (h : 2 * ((n : Int) - (d * roundDiv n d : Nat)).natAbs = d) :
    Even (roundDiv n d) := by
  rw [Nat.even_iff]
  obtain hlt | hle := Nat.lt_or_ge n (d * roundDiv n d)
  · obtain ⟨k, hk⟩ := Nat.exists_eq_succ_of_ne_zero (Nat.pos_of_mul_pos_left (Nat.zero_lt_of_lt hlt)).ne'
    have hprevious : d * roundDiv n d = d * k + d := by rw [hk, Nat.mul_succ]
    exact even_roundDiv_of_natAbs_eq (k := k) hd (by omega) (by omega)
  · have hnext : d * (roundDiv n d + 1) = d * roundDiv n d + d := Nat.mul_succ _ _
    exact even_roundDiv_of_natAbs_eq (k := roundDiv n d + 1) hd (by omega) (by omega)

/-- A quotient is rounded to the nearest integer. -/
theorem isRounded_roundDiv (n : Nat) {d : Nat} (hd : 0 < d) : IsRounded ((n : ℚ) / d) (roundDiv n d : Nat) := by
  have hdq : (0 : ℚ) < d := by exact_mod_cast hd
  have hdistance : |(n : ℚ) / d - ((roundDiv n d : Nat) : ℤ)| =
      ((n : Int) - (d * roundDiv n d : Nat)).natAbs / d := by
    rw [Nat.cast_natAbs, Int.cast_abs, ← abs_of_pos hdq, ← abs_div, abs_of_pos hdq]
    congr 1
    push_cast
    field_simp
  have hlow : 2 * (d * roundDiv n d) ≤ 2 * n + d := two_mul_roundDiv_le hd
  have hhigh : 2 * n ≤ 2 * (d * roundDiv n d) + d := le_two_mul_roundDiv hd
  refine isRounded_of_abs_le ?_ fun hhalf => ?_
  · rw [hdistance, div_le_div_iff₀ hdq two_pos]
    have hnat : ((n : Int) - (d * roundDiv n d : Nat)).natAbs * 2 ≤ 1 * d := by omega
    exact_mod_cast hnat
  · rw [hdistance, div_eq_div_iff hdq.ne' two_ne_zero] at hhalf
    have hnat : ((n : Int) - (d * roundDiv n d : Nat)).natAbs * 2 = 1 * d := by exact_mod_cast hhalf
    exact_mod_cast even_roundDiv hd (by omega)

/-- Rounding keeps the sign. -/
theorem IsRounded.signed {q : ℚ} {k : ℤ} (h : IsRounded q k) (negative : Bool) :
    IsRounded (Double.signed negative q) (if negative then -k else k) := by
  cases negative with
  | false => exact h
  | true =>
      have hmirror : ∀ j : ℤ, |-q - (j : ℚ)| = |q - (-j : ℤ)| := by
        intro j
        rw [← abs_neg, Int.cast_neg]
        congr 1
        ring
      have hself : |-q - ((-k : ℤ) : ℚ)| = |q - k| := by rw [hmirror, neg_neg]
      constructor
      · intro j
        exact (hself.trans_le (h.abs_sub_le (-j))).trans_eq (hmirror j).symm
      · intro j heq
        have heven := h.eq_or_even (-j) ((hself.symm.trans heq).trans (hmirror j))
        rw [if_pos rfl, even_neg]
        exact heven.imp_left fun hj => by omega

/-! ## The digits of a fraction -/

theorem digitsValue_append_zeros (ds : List Char) (k : Nat) :
    digitsValue (ds ++ List.replicate k '0') = tenPow k * digitsValue ds := by
  rw [digitsValue, Nat.ofDigitChars_append, Nat.ofDigitChars_replicate_zero]
  rfl

theorem digitsValue_threeDigits {n : Nat} (h : n < 1000) : digitsValue (threeDigits n) = n := by
  simp only [digitsValue, threeDigits, List.map_cons, List.map_nil]
  rw [Nat.ofDigitChars_cons_digitChar_of_lt_ten (by omega), Nat.ofDigitChars_cons_digitChar_of_lt_ten (by omega),
    Nat.ofDigitChars_cons_digitChar_of_lt_ten (by omega), Nat.ofDigitChars_nil]
  omega

theorem isDigit_of_mem_threeDigits {n : Nat} (h : n < 1000) {c : Char} (hc : c ∈ threeDigits n) :
    c.isDigit = true := by
  obtain ⟨d, hd, rfl⟩ := List.mem_map.mp hc
  rw [Nat.isDigit_digitChar, decide_eq_true_eq]
  simp only [List.mem_cons, List.not_mem_nil, or_false] at hd
  omega

theorem dropZeros_eq_rdropWhile (ds : List Char) : dropZeros ds = ds.rdropWhile (· = '0') := rfl

/-- Only zeros are dropped. -/
theorem dropZeros_append_zeros (ds : List Char) :
    dropZeros ds ++ List.replicate (ds.length - (dropZeros ds).length) '0' = ds := by
  have happend : dropZeros ds ++ ds.rtakeWhile (· = '0') = ds := List.rdropWhile_append_rtakeWhile
  have hlength := congrArg List.length happend
  rw [List.length_append] at hlength
  have hzeros : ds.rtakeWhile (· = '0') = List.replicate (ds.length - (dropZeros ds).length) '0' := by
    rw [List.eq_replicate_iff]
    exact ⟨by omega, fun c hc => by simpa using List.mem_rtakeWhile_imp hc⟩
  rwa [← hzeros]

/-- All of them are. -/
theorem getLast?_dropZeros (ds : List Char) : (dropZeros ds).getLast? ≠ some '0' := by
  intro hlast
  have hne : ds.rdropWhile (· = '0') ≠ [] := by
    intro hnil
    rw [dropZeros_eq_rdropWhile, hnil] at hlast
    contradiction
  have hnot := List.rdropWhile_last_not (· = '0') ds hne
  rw [dropZeros_eq_rdropWhile, List.getLast?_eq_some_getLast hne, Option.some.injEq] at hlast
  rw [hlast] at hnot
  contradiction

/-- A digit of a fraction without the zeros at its end. -/
theorem isDigit_of_mem_dropZeros {n : Nat} (h : n < 1000) {c : Char} (hc : c ∈ dropZeros (threeDigits n)) :
    c.isDigit = true :=
  isDigit_of_mem_threeDigits h ((List.rdropWhile_prefix _ (threeDigits n)).subset hc)

theorem length_dropZeros_le (n : Nat) : (dropZeros (threeDigits n)).length ≤ 3 :=
  (List.rdropWhile_prefix _ (threeDigits n)).length_le

/-- The value of a numeral with a whole part and a fraction. -/
def value (negative : Bool) (whole fraction : List Char) : ℚ :=
  Double.signed negative (digitsValue whole + digitsValue fraction / 10 ^ fraction.length)

/-- The numeral of a number of thousandths has its value. -/
theorem value_thousandths (negative : Bool) (n : Nat) :
    value negative (digits (n / 1000)) (dropZeros (threeDigits (n % 1000))) = Double.signed negative (n / 1000) := by
  have hlt : n % 1000 < 1000 := Nat.mod_lt _ (by decide)
  have hfull := digitsValue_append_zeros (dropZeros (threeDigits (n % 1000)))
    (3 - (dropZeros (threeDigits (n % 1000))).length)
  have hzeros := dropZeros_append_zeros (threeDigits (n % 1000))
  have hlength := length_dropZeros_le (n % 1000)
  rw [show (threeDigits (n % 1000)).length = 3 from rfl] at hzeros
  rw [hzeros, digitsValue_threeDigits hlt] at hfull
  rw [value, digitsValue_digits]
  generalize dropZeros (threeDigits (n % 1000)) = fraction at hfull hlength ⊢
  have hscale : (10 : ℚ) ^ (3 - fraction.length) * 10 ^ fraction.length = 1000 := by
    rw [← pow_add, Nat.sub_add_cancel hlength]
    norm_num
  have hthousandths : (digitsValue fraction : ℚ) / 10 ^ fraction.length = (n % 1000 : Nat) / 1000 := by
    have hcast : ((n % 1000 : Nat) : ℚ) = 10 ^ (3 - fraction.length) * digitsValue fraction := by
      rw [hfull, Nat.cast_mul]
      congr 1
      exact Nat.cast_pow 10 _
    rw [div_eq_div_iff (by positivity) (by norm_num), hcast, ← hscale]
    ring
  have hsplit : (n : ℚ) = 1000 * (n / 1000 : Nat) + (n % 1000 : Nat) := by
    exact_mod_cast (Nat.div_add_mod n 1000).symm
  rw [hthousandths, hsplit]
  congr 1
  field_simp

/-! ## Cutting off the end -/

theorem rdropWhile_append_of_forall {α : Type} {p : α → Bool} {as bs : List α} (h : ∀ b ∈ bs, p b = true) :
    (as ++ bs).rdropWhile p = as.rdropWhile p := by
  rw [List.rdropWhile, List.rdropWhile, List.reverse_append,
    List.dropWhile_append_of_pos fun b hb => h b (List.mem_reverse.mp hb)]

theorem rdropWhile_eq_self {α : Type} {p : α → Bool} {as : List α} (h : ∀ a ∈ as.getLast?, p a = false) :
    as.rdropWhile p = as := by
  rw [List.rdropWhile_eq_self_iff]
  intro hne
  simp [h _ (List.getLast?_eq_some_getLast hne)]

theorem head?_groupReversed (ds : List Char) : (groupReversed ds).head? = ds.head? := by
  fun_cases groupReversed ds <;> rfl

/-- Grouping leaves the last digit in its place. -/
theorem getLast?_group (ds : List Char) : (group ds).getLast? = ds.getLast? := by
  rw [group, List.getLast?_reverse, head?_groupReversed, List.head?_reverse]

theorem signed_append (negative : Bool) (cs ds : List Char) : signed negative (cs ++ ds) = signed negative cs ++ ds := by
  cases negative <;> rfl

/-- The whole part of a numeral ends with a digit. -/
theorem isDigit_getLast?_whole (negative : Bool) (n : Nat) :
    ∀ c ∈ (signed negative (group (digits n))).getLast?, c.isDigit = true := by
  have hgroup : ∀ c ∈ (group (digits n)).getLast?, c.isDigit = true := by
    intro c hc
    rw [getLast?_group] at hc
    exact isDigit_of_mem_digits (List.mem_of_getLast? hc)
  have hne : group (digits n) ≠ [] := by
    rw [← List.getLast?_isSome, getLast?_group, List.getLast?_isSome]
    exact digits_ne_nil n
  cases negative with
  | false => exact hgroup
  | true => rwa [signed, if_pos rfl, List.getLast?_cons_of_ne_nil hne]

/-- A numeral ends with a digit, with a fraction or without. -/
theorem isDigit_getLast?_fraction {whole fraction : List Char} (hwhole : ∀ c ∈ whole.getLast?, c.isDigit = true)
    (hdigit : ∀ c ∈ fraction, c.isDigit = true) :
    ∀ c ∈ (whole ++ if fraction = [] then [] else '.' :: fraction).getLast?, c.isDigit = true := by
  intro c hc
  split at hc
  · rw [List.append_nil] at hc
    exact hwhole c hc
  · next hne =>
    rw [List.getLast?_append_of_ne_nil _ (List.cons_ne_nil _ _), List.getLast?_cons_of_ne_nil hne] at hc
    exact hdigit c (List.mem_of_getLast? hc)

/-- Cutting off zeros at the end, and then a point, leaves the fraction without its zeros, and all of the whole part. -/
theorem rdropWhile_fraction {whole fraction : List Char} (hwhole : ∀ c ∈ whole.getLast?, c.isDigit = true)
    (hdigit : ∀ c ∈ fraction, c.isDigit = true) (hlast : fraction.getLast? ≠ some '0') (k : Nat) :
    ((whole ++ '.' :: (fraction ++ List.replicate k '0')).rdropWhile (· = '0')).rdropWhile (· = '.') =
      whole ++ if fraction = [] then [] else '.' :: fraction := by
  have hpoint : ∀ cs : List Char, (∀ c ∈ cs.getLast?, c.isDigit = true) → cs.rdropWhile (· = '.') = cs := by
    intro cs hcs
    refine rdropWhile_eq_self fun c hc => ?_
    rw [decide_eq_false_iff_not]
    rintro rfl
    exact absurd (hcs _ hc) (by decide)
  have hzeros :
      (whole ++ '.' :: (fraction ++ List.replicate k '0')).rdropWhile (· = '0') = whole ++ '.' :: fraction := by
    rw [← List.cons_append, ← List.append_assoc, rdropWhile_append_of_forall (by simp)]
    refine rdropWhile_eq_self fun c hc => ?_
    rw [List.getLast?_append_of_ne_nil _ (List.cons_ne_nil _ _)] at hc
    rw [decide_eq_false_iff_not]
    rintro rfl
    cases fraction with
    | nil => simp at hc
    | cons d ds => exact hlast (by simpa using hc)
  have hends := isDigit_getLast?_fraction hwhole hdigit
  rw [hzeros]
  split
  · next hnil =>
    rw [hnil, List.rdropWhile_concat_pos _ _ _ (by decide), List.append_nil]
    exact hpoint _ hwhole
  · next hne =>
    rw [if_neg hne] at hends
    exact hpoint _ hends

end Numeral

end ColumnLabel
