import ColumnLabel.Proofs.Context.Shown
import ColumnLabel.Proofs.Number.Thousandths
import Mathlib

/-!
# ColumnLabel.Proofs.Value.Numerals

What numbers look like in a label.

Whole numbers are shown exactly, by their numeral in groups of three, and doubles without a fraction are whole numbers
too (`display_number_whole`).  Other doubles are shown rounded to thousandths (`display_number_fraction`).
-/

namespace ColumnLabel.Value

theorem display_number_of_eq_ok {n : Number} {cs : List Char} (h : n.display = .ok cs) :
    (number n).display = .ok (.text (String.ofList cs)) := by
  rw [display, h]
  rfl

theorem asText_number_of_eq_ok {n : Number} {cs : List Char} (h : n.asText = .ok cs) :
    (number n).asText = .ok (.text (String.ofList cs)) := by
  rw [asText, h]
  rfl

/-- What is shown for an integer, if anything is, is its grouped numeral. -/
theorem eq_grouped_of_display {i : Int} {shown : Datum} (h : (number (.int i)).display = .ok shown) :
    shown = .text (String.ofList (Numeral.grouped i)) := by
  have hwritable := isShown_int_iff.mp ⟨shown, h⟩
  rw [display_number_of_eq_ok (Number.display_int hwritable)] at h
  exact (Except.ok.inj h).symm

/-- **Whole numbers.**  An integer of at most 4300 digits is shown as its canonical numeral with a comma between each
three digits, counted from the right, and with its sign in front.  No two integers are shown by the same text.  A double
without a fraction, of any size, is shown and compared as the integer that it is. -/
theorem display_number_whole :
    (∀ i : Int, (Numeral.digits i.natAbs).length ≤ Numeral.maxDigits →
      ∃ (shown plain : String) (ds cs : List Char),
        (number (.int i)).display = .ok (.text shown) ∧ (number (.int i)).asText = .ok (.text plain) ∧
        shown.toList.filter (· ≠ ',') = plain.toList ∧
        plain.toList = Numeral.signed (i < 0) ds ∧ Numeral.IsNumeral i.natAbs ds ∧
        shown.toList = Numeral.signed (i < 0) cs ∧ Numeral.IsGrouped ds cs) ∧
    (∀ (i j : Int) (shown : Datum),
      (number (.int i)).display = .ok shown → (number (.int j)).display = .ok shown → i = j) ∧
    ∀ (x : Double) (i : Int), x.value? = some (i : ℚ) →
      (Numeral.digits i.natAbs).length ≤ Numeral.maxDigits ∧
        (number (.double x)).display = (number (.int i)).display ∧
        (number (.double x)).asText = (number (.int i)).asText := by
  refine ⟨fun i hi => ?_, fun i j shown hi hj => ?_, fun x i hx => ?_⟩
  · have hwritable := Numeral.isWritable_iff_length.mpr hi
    refine ⟨_, _, _, _, display_number_of_eq_ok (Number.display_int hwritable),
      asText_number_of_eq_ok (Number.asText_int hwritable), ?_, String.toList_ofList, Numeral.isNumeral_digits _,
      String.toList_ofList, Numeral.isGrouped_group (Numeral.digits_ne_nil _)⟩
    rw [String.toList_ofList, String.toList_ofList, Numeral.filter_grouped]
  · have htext := Datum.text.inj ((eq_grouped_of_display hi).symm.trans (eq_grouped_of_display hj))
    exact Numeral.grouped_inj (String.ofList_injective htext)
  · have hint := Double.toInt?_eq_some_iff.mpr hx
    obtain ⟨hdisplay, hasText⟩ := Number.display_double_of_toInt? hint
    refine ⟨Numeral.isWritable_iff_length.mp (Double.isWritable_of_toInt? hint), ?_, ?_⟩
    · rw [display, display, hdisplay]
    · rw [asText, asText, hasText]

/-- A negative power of two far beyond the numbers that doubles hold without gaps. -/
theorem display_number_whole_power :
    let x : Double := .finite true ⟨1092 * Magnitude.run + Magnitude.run, by decide⟩
    let i : Int := -1180591620717411303424
    (Numeral.digits i.natAbs).length ≤ Numeral.maxDigits ∧ x.value? = some (i : ℚ) ∧
      (number (.double x)).display = .ok (.text "-1,180,591,620,717,411,303,424") ∧
      (number (.double x)).asText = .ok (.text "-1180591620717411303424") := by
  intro x i
  obtain ⟨hwhole, hinjective, hdouble⟩ := display_number_whole
  have hlength : (Numeral.digits i.natAbs).length ≤ Numeral.maxDigits := by decide +kernel
  have hvalue : x.value? = some (i : ℚ) := Double.toInt?_eq_some_iff.mp (by decide +kernel)
  have hshown : Number.display (.int i) = .ok "-1,180,591,620,717,411,303,424".toList :=
    toOption_eq_some_iff.mp (by decide +kernel)
  have hplain : Number.asText (.int i) = .ok "-1180591620717411303424".toList :=
    toOption_eq_some_iff.mp (by decide +kernel)
  obtain ⟨-, hdisplay, hasText⟩ := hdouble x i hvalue
  refine ⟨hlength, hvalue, ?_, ?_⟩
  · rw [hdisplay, display_number_of_eq_ok hshown, String.ofList_toList]
  · rw [hasText, asText_number_of_eq_ok hplain, String.ofList_toList]

/-- A double with a fraction is shown as the rounded number of its thousandths. -/
theorem display_double_of_ne_intCast {negative : Bool} {m : Magnitude}
    (h : ∀ i : ℤ, Double.signed negative m.value ≠ i) :
    (number (.double (.finite negative m))).display =
      .ok (.text (String.ofList (Numeral.thousandths negative (roundDiv (m.num * 1000) m.den)))) := by
  have hint : (Double.finite negative m).toInt? = none := by
    rw [Option.eq_none_iff_forall_ne_some]
    intro i hi
    have hvalue := Double.toInt?_eq_some_iff.mp hi
    rw [Double.value?, Option.some.injEq] at hvalue
    exact h i hvalue
  refine display_number_of_eq_ok ?_
  rw [Number.display, hint]
  rfl

/-- **Fractions.**  A double with a fraction is shown as a numeral whose value is that of the double rounded to
thousandths, a half to the even neighbour: a sign in front of what is negative, the whole part in groups of three, and
up to three digits of a fraction, the last one no zero.  That is the numeral with three decimals when zeros at its end
are cut off, and then a point. -/
theorem display_number_fraction {x : Double} {q : ℚ} (hx : x.value? = some q) (hq : ∀ i : ℤ, q ≠ i) :
    ∃ (shown : String) (k : ℤ) (whole groups fraction : List Char),
      (number (.double x)).display = .ok (.text shown) ∧
      shown.toList = Numeral.signed (q < 0) (groups ++ if fraction = [] then [] else '.' :: fraction) ∧
      Numeral.IsGrouped whole groups ∧ Numeral.IsNumeral (k.natAbs / 1000) whole ∧
      (∀ c ∈ fraction, c.isDigit = true) ∧ fraction.length ≤ 3 ∧ fraction.getLast? ≠ some '0' ∧
      Numeral.value (q < 0) whole fraction = k / 1000 ∧ Numeral.IsRounded (q * 1000) k ∧
      shown.toList =
        ((Numeral.signed (q < 0) (groups ++ '.' :: (fraction ++ List.replicate (3 - fraction.length) '0'))).rdropWhile
          (· = '0')).rdropWhile (· = '.') ∧
      ∀ c ∈ shown.toList.getLast?, c.isDigit = true := by
  obtain _ | _ | ⟨negative, m⟩ := x
  · contradiction
  · contradiction
  obtain rfl := Option.some.inj hx
  have hsign := Double.decide_signed_lt_zero negative m.value_nonneg (by simpa using hq 0)
  have hdisplay := display_double_of_ne_intCast hq
  have hlt : roundDiv (m.num * 1000) m.den % 1000 < 1000 := Nat.mod_lt _ (by decide)
  have hround := (Numeral.isRounded_roundDiv (m.num * 1000) m.den_pos).signed negative
  have hscale : Double.signed negative ((m.num * 1000 : Nat) / m.den) = Double.signed negative m.value * 1000 := by
    rw [← Double.signed_mul, Magnitude.value, Nat.cast_mul, mul_div_right_comm, Nat.cast_ofNat]
  rw [hscale] at hround
  generalize roundDiv (m.num * 1000) m.den = n at hdisplay hlt hround
  have habs : (if negative then -(n : ℤ) else n).natAbs = n := by
    cases negative <;> simp
  have hvalue := Numeral.value_thousandths negative n
  have hdigit : ∀ c ∈ Numeral.dropZeros (Numeral.threeDigits (n % 1000)), c.isDigit = true :=
    fun c hc => Numeral.isDigit_of_mem_dropZeros hlt hc
  have hwhole := Numeral.isDigit_getLast?_whole negative (n / 1000)
  have htext : Numeral.thousandths negative n =
      Numeral.signed negative (Numeral.group (Numeral.digits (n / 1000))) ++
        if Numeral.dropZeros (Numeral.threeDigits (n % 1000)) = [] then []
        else '.' :: Numeral.dropZeros (Numeral.threeDigits (n % 1000)) := Numeral.signed_append _ _ _
  rw [hsign]
  refine ⟨_, _, _, _, _, hdisplay, String.toList_ofList, Numeral.isGrouped_group (Numeral.digits_ne_nil _), ?_,
    hdigit, Numeral.length_dropZeros_le _, Numeral.getLast?_dropZeros _, ?_, hround, ?_, ?_⟩
  · rw [habs]
    exact Numeral.isNumeral_digits _
  · rw [hvalue]
    cases negative <;> simp [Double.signed, neg_div]
  · rw [String.toList_ofList, Numeral.signed_append, Numeral.rdropWhile_fraction hwhole hdigit
      (Numeral.getLast?_dropZeros _), htext]
  · rw [String.toList_ofList, htext]
    exact Numeral.isDigit_getLast?_fraction hwhole hdigit

/-- A quarter of a thousandth below a thousand the whole part gets a digit and a comma. -/
theorem display_number_fraction_carry :
    let x : Double := .finite true ⟨1031 * Magnitude.run + 4095999 * twoPow 31, by decide⟩
    let q : ℚ := -4095999 / 4096
    x.value? = some q ∧ (∀ i : ℤ, q ≠ i) ∧ (number (.double x)).display = .ok (.text "-1,000") ∧
      Numeral.IsRounded (q * 1000) (-1000000) := by
  intro x q
  have hmagnitude := (@Magnitude.value_mk 1031 (4095999 * twoPow 31) (.inr (by decide)) (by decide) (by decide)).1
  have hvalue : x.value? = some q := by
    rw [Double.value?, hmagnitude, Nat.cast_mul, cast_twoPow]
    norm_num [Double.signed, q]
  have hq : ∀ i : ℤ, q ≠ i := by
    intro i hi
    have hnum : (-4095999 : ℚ) = i * 4096 := (div_eq_iff (by norm_num)).mp hi
    have hint : (-4095999 : ℤ) = i * 4096 := by exact_mod_cast hnum
    omega
  obtain ⟨_, k, _, _, _, _, _, _, _, _, _, _, _, hround, _⟩ := display_number_fraction hvalue hq
  have hshown : Number.display (.double x) = .ok "-1,000".toList := toOption_eq_some_iff.mp (by decide +kernel)
  -- no other integer is within half a unit
  have hk : k = -1000000 := by
    have hdistance : |q * 1000 - ((-1000000 : ℤ) : ℚ)| < 1 / 2 := by norm_num [q, abs_of_pos]
    have hnear := abs_lt.mp ((hround.abs_sub_le (-1000000)).trans_lt hdistance)
    have hfar := abs_lt.mp hdistance
    push_cast at hfar
    have hlow : (-1000001 : ℚ) < k := by linarith
    have hhigh : (k : ℚ) < -999999 := by linarith
    have hlow : -1000001 < k := by exact_mod_cast hlow
    have hhigh : k < -999999 := by exact_mod_cast hhigh
    omega
  rw [hk] at hround
  exact ⟨hvalue, hq, by rw [display_number_of_eq_ok hshown, String.ofList_toList], hround⟩

end ColumnLabel.Value
