import ColumnLabel.Proofs.Number.Reach
import Mathlib

/-!
# ColumnLabel.Proofs.Number.Nearest

The double that a fraction is rounded to is the nearest one.

The fraction lies in a run of magnitudes at equal distances, and its place in the run is rounded to a whole number of
steps.  Every other magnitude either is a whole number of these steps too, or lies below the run, and then the start of
the run is nearer (`exists_value_eq_or_lt`).  The main statements are `nearest?_isNearest` for magnitudes and
`exists_isNearest_ofFraction` for doubles.  The whole numbers up to `2 ^ 53` need no rounding
(`exists_value?_eq_intCast`).
-/

namespace ColumnLabel

/-! ## Whole numbers of steps -/

/-- Different multiples are a step apart. -/
theorem mul_add_le_or_of_ne (d : Nat) {j k : Nat} (h : j ≠ k) : d * j + d ≤ d * k ∨ d * k + d ≤ d * j := by
  obtain hlt | hgt := Nat.lt_or_gt_of_ne h
  · exact .inl (Nat.mul_le_mul_left d hlt)
  · exact .inr (Nat.mul_le_mul_left d hgt)

/-- No whole number is nearer to a quotient than the rounded one. -/
theorem natAbs_sub_roundDiv_le (n : Nat) {d : Nat} (hd : 0 < d) (k : Nat) :
    ((n : Int) - (d * roundDiv n d : Nat)).natAbs ≤ ((n : Int) - (d * k : Nat)).natAbs := by
  have hlow : 2 * (d * roundDiv n d) ≤ 2 * n + d := two_mul_roundDiv_le hd
  have hhigh : 2 * n ≤ 2 * (d * roundDiv n d) + d := le_two_mul_roundDiv hd
  obtain rfl | hk := eq_or_ne k (roundDiv n d)
  · exact Nat.le_refl _
  · have hstep := mul_add_le_or_of_ne d hk
    omega

/-- Of two whole numbers that are equally near the rounded one is even. -/
theorem even_roundDiv_of_natAbs_eq {n d k : Nat} (hd : 0 < d) (hk : k ≠ roundDiv n d)
    (h : ((n : Int) - (d * roundDiv n d : Nat)).natAbs = ((n : Int) - (d * k : Nat)).natAbs) :
    roundDiv n d % 2 = 0 := by
  -- two numbers a step apart and equally near are half a step away
  have hhalf : 2 * ((n : Int) - (d * roundDiv n d : Nat)).natAbs = d := by
    have hlow : 2 * (d * roundDiv n d) ≤ 2 * n + d := two_mul_roundDiv_le hd
    have hhigh : 2 * n ≤ 2 * (d * roundDiv n d) + d := le_two_mul_roundDiv hd
    have hstep := mul_add_le_or_of_ne d hk
    omega
  refine even_roundDiv_of_half ?_
  have hn : d * (n / d) + n % d = n := Nat.div_add_mod n d
  have hr : n % d < d := Nat.mod_lt n hd
  have hcases : roundDiv n d = n / d ∨ roundDiv n d = n / d + 1 := by
    unfold roundDiv
    simp only
    split
    · exact .inl rfl
    · exact .inr rfl
  obtain hq | hq := hcases
  · rw [hq] at hhalf
    omega
  · rw [hq, Nat.mul_succ] at hhalf
    omega

namespace Magnitude

/-! ## Values -/

/-- The value of a magnitude. -/
def value (m : Magnitude) : ℚ := m.num / m.den

theorem value_eq (m : Magnitude) : m.value = m.significand * 2 ^ m.exponent := by
  have hexp : m.exponent = m.exponent.toNat - (-m.exponent).toNat := by omega
  rw [value, num, den, Nat.cast_mul, cast_twoPow, cast_twoPow]
  conv_rhs => rw [hexp, zpow_sub₀ two_ne_zero]
  rw [mul_div_assoc]

theorem value_nonneg (m : Magnitude) : 0 ≤ m.value := by
  unfold value
  positivity

theorem value_zero : zero.value = 0 := by
  rw [value_eq]
  exact mul_eq_zero_of_left (Nat.cast_eq_zero.mpr (by decide)) _

theorem run_pos : 0 < run := twoPow_pos 52

theorem significand_lt (m : Magnitude) : m.significand < 2 * run := by
  have hmod := Nat.mod_lt m.ordinal run_pos
  unfold significand
  split <;> omega

theorem neg_le_exponent (m : Magnitude) : -1074 ≤ m.exponent := by
  unfold exponent
  split
  · exact Int.le_refl _
  · next h =>
    have hdiv : 1 ≤ m.ordinal / run := Nat.div_pos (by omega) run_pos
    omega

/-- Every magnitude is a whole number of steps, or lies below the run that has these steps. -/
theorem exists_value_eq_or_lt (m : Magnitude) {e : Int} (he : -1074 ≤ e) :
    (∃ k : Nat, m.value = k * 2 ^ e) ∨ (-1074 < e ∧ m.value < run * 2 ^ e) := by
  rw [value_eq]
  by_cases hle : e ≤ m.exponent
  · left
    refine ⟨m.significand * twoPow (m.exponent - e).toNat, ?_⟩
    have hsum : m.exponent = (m.exponent - e).toNat + e := by omega
    rw [Nat.cast_mul, cast_twoPow, mul_assoc, ← zpow_add₀ two_ne_zero, ← hsum]
  · right
    have hexp := m.neg_le_exponent
    refine ⟨by omega, ?_⟩
    have hsig : (m.significand : ℚ) < 2 * run := by
      exact_mod_cast m.significand_lt
    calc (m.significand : ℚ) * 2 ^ m.exponent < 2 * run * 2 ^ m.exponent := by gcongr
      _ = run * 2 ^ (m.exponent + 1) := by
        rw [zpow_add₀ two_ne_zero, zpow_one]
        ring
      _ ≤ run * 2 ^ e := mul_two_zpow_le run (by omega)

/-- The magnitude that lies a number of steps into the `k`-th run.  A full run of steps ends at the start of the next
one, where the steps are twice as long. -/
theorem value_mk {k units : Nat} (hk : k = 0 ∨ run ≤ units) (hunits : units ≤ 2 * run)
    (h : k * run + units < count) :
    value ⟨k * run + units, h⟩ = units * 2 ^ ((k : Int) - 1074) ∧
      significand ⟨k * run + units, h⟩ % 2 = units % 2 := by
  have hpos := run_pos
  rw [value_eq]
  obtain hlt | hge := Nat.lt_or_ge (k * run + units) run
  · obtain rfl : k = 0 := by omega
    rw [Nat.zero_mul, Nat.zero_add] at hlt
    simp only [significand, exponent, Nat.zero_mul, Nat.zero_add, if_pos hlt]
    exact ⟨rfl, trivial⟩
  · have hrun : run ≤ units := by
      obtain rfl | hrun := hk
      · omega
      · exact hrun
    simp only [significand, exponent, if_neg (Nat.not_lt.mpr hge)]
    obtain rfl | hpart := Nat.eq_or_lt_of_le hunits
    · have hordinal : k * run + 2 * run = (k + 2) * run := by ring
      have hexp : ((k + 2 : Nat) : Int) - 1075 = 1 + ((k : Int) - 1074) := by omega
      rw [hordinal, Nat.mul_div_cancel _ hpos, Nat.mul_mod_left, hexp, zpow_add₀ two_ne_zero]
      refine ⟨?_, by decide⟩
      push_cast
      ring
    · have hordinal : k * run + units = units - run + (k + 1) * run := by
        rw [Nat.succ_mul]
        omega
      have hexp : ((k + 1 : Nat) : Int) - 1075 = (k : Int) - 1074 := by omega
      have hsig : run + (units - run) = units := by omega
      rw [hordinal, Nat.add_mul_div_right _ _ hpos, Nat.add_mul_mod_self_right, Nat.mod_eq_of_lt (by omega),
        Nat.div_eq_of_lt (by omega), Nat.zero_add, hexp, hsig]
      exact ⟨rfl, rfl⟩

/-! ## The nearest magnitude -/

/-- The nearest magnitude is a rounded number of steps, from the start of its run on. -/
theorem exists_steps_of_nearest? {num den : Nat} {m : Magnitude} (hn : 0 < num) (hd : 0 < den)
    (h : nearest? num den = some m) :
    ∃ e : Int, -1074 ≤ e ∧ (e = -1074 ∨ (den : ℚ) * 2 ^ (e + 52) ≤ num) ∧
      m.value = roundDiv (num * twoPow (-e).toNat) (den * twoPow e.toNat) * 2 ^ e ∧
      m.significand % 2 = roundDiv (num * twoPow (-e).toNat) (den * twoPow e.toNat) % 2 := by
  obtain ⟨hlow, hhigh⟩ := floorLog2_bounds hn hd
  simp only [nearest?, if_neg (Nat.pos_iff_ne_zero.mp hn)] at h
  generalize he : max (-1074) (floorLog2 num den - 52) = e at h
  split at h
  · next hcount =>
    obtain rfl := Option.some.inj h
    have hstart : e = -1074 ∨ (den : ℚ) * 2 ^ (e + 52) ≤ num := by
      obtain hmax | hmax := le_total (floorLog2 num den - 52) (-1074)
      · exact .inl (by omega)
      · have hplace : e + 52 = floorLog2 num den := by omega
        exact .inr (hplace ▸ hlow)
    have hunits := roundDiv_units_le (e := e) hd (lt_of_lt_of_le hhigh (mul_two_zpow_le den (by omega)))
    have hrun : (e + 1074).toNat = 0 ∨
        run ≤ roundDiv (num * twoPow (-e).toNat) (den * twoPow e.toNat) := by
      obtain rfl | hstart := hstart
      · exact .inl rfl
      · exact .inr (le_roundDiv_units hd hstart)
    obtain ⟨hvalue, heven⟩ := value_mk hrun hunits hcount
    have hexp : ((e + 1074).toNat : Int) - 1074 = e := by omega
    rw [hexp] at hvalue
    exact ⟨e, by omega, hstart, hvalue, heven⟩
  · contradiction

/-- The distance of a fraction from a number of steps, as a whole number over a common denominator. -/
theorem abs_sub_steps_eq (num : Nat) {den : Nat} (hd : 0 < den) (e : Int) (k : Nat) :
    |(num : ℚ) / den - k * 2 ^ e| =
      ((num * twoPow (-e).toNat : Nat) - (den * twoPow e.toNat * k : Nat) : Int).natAbs *
        (2 ^ e / (den * twoPow e.toNat : Nat)) := by
  have hden : (den : ℚ) ≠ 0 := by exact_mod_cast hd.ne'
  have hexp : (2 : ℚ) ^ (e.toNat : ℤ) = 2 ^ ((-e).toNat : ℤ) * 2 ^ e := by
    rw [← zpow_add₀ two_ne_zero]
    congr 1
    omega
  have hscale : (0 : ℚ) ≤ 2 ^ e / (den * twoPow e.toNat : Nat) := by positivity
  rw [Nat.cast_natAbs, Int.cast_abs, ← abs_of_nonneg hscale, ← abs_mul]
  congr 1
  push_cast
  rw [cast_twoPow, cast_twoPow, hexp]
  field_simp

/-- **Rounding.**  No magnitude is nearer to a fraction than the one it is rounded to, and one that is as near is equal
to it or leaves the even significand to it. -/
theorem nearest?_isNearest {num den : Nat} {m : Magnitude} (hd : 0 < den) (h : nearest? num den = some m)
    (m' : Magnitude) :
    |(num : ℚ) / den - m.value| ≤ |(num : ℚ) / den - m'.value| ∧
      (|(num : ℚ) / den - m.value| = |(num : ℚ) / den - m'.value| →
        m'.value = m.value ∨ m.significand % 2 = 0) := by
  obtain rfl | hn := Nat.eq_zero_or_pos num
  · have hm : m.value = 0 := by
      obtain rfl := Option.some.inj (h : some zero = some m)
      exact value_zero
    rw [hm, Nat.cast_zero, zero_div, sub_zero, abs_zero, zero_sub, abs_neg]
    exact ⟨abs_nonneg _, fun heq => .inl (abs_eq_zero.mp heq.symm)⟩
  obtain ⟨e, he, hstart, hvalue, heven⟩ := exists_steps_of_nearest? hn hd h
  generalize hn' : num * twoPow (-e).toNat = n at hvalue heven
  generalize hd' : den * twoPow e.toNat = d at hvalue heven
  have hdpos : 0 < d := hd' ▸ Nat.mul_pos hd (twoPow_pos _)
  have hscale : (0 : ℚ) < 2 ^ e / d := by positivity
  have hsteps : ∀ k : Nat, |(num : ℚ) / den - k * 2 ^ e| = ((n : Int) - (d * k : Nat)).natAbs * (2 ^ e / d) := by
    intro k
    rw [abs_sub_steps_eq num hd, hn', hd']
  have hle : ∀ k : Nat, |(num : ℚ) / den - m.value| ≤ |(num : ℚ) / den - k * 2 ^ e| := by
    intro k
    rw [hvalue, hsteps, hsteps]
    gcongr
    exact natAbs_sub_roundDiv_le n hdpos k
  obtain ⟨k, hk⟩ | ⟨hlow, hbelow⟩ := m'.exists_value_eq_or_lt he
  · rw [hk]
    refine ⟨hle k, fun heq => ?_⟩
    rw [hvalue, hsteps, hsteps, mul_left_inj' hscale.ne', Nat.cast_inj] at heq
    by_cases hsame : k = roundDiv n d
    · exact .inl (by rw [hvalue, hsame])
    · exact .inr (by rw [heven, even_roundDiv_of_natAbs_eq hdpos hsame heq])
  · -- the start of the run lies between the other magnitude and the fraction
    have hrun : (run : ℚ) * 2 ^ e ≤ num / den := by
      have hplace := hstart.resolve_left hlow.ne'
      have hcast : (run : ℚ) = 2 ^ (52 : ℤ) := cast_twoPow 52
      rw [le_div_iff₀ (by exact_mod_cast hd), hcast, ← zpow_add₀ two_ne_zero, add_comm 52 e, mul_comm]
      exact hplace
    have hlt : |(num : ℚ) / den - m.value| < |(num : ℚ) / den - m'.value| := by
      refine lt_of_le_of_lt (hle run) ?_
      rw [abs_of_nonneg (by linarith), abs_of_nonneg (by linarith)]
      linarith
    exact ⟨hlt.le, fun heq => absurd heq hlt.ne⟩

theorem exists_nearest?_eq_some {num den : Nat} (hd : 0 < den) (h : num < Double.reach * den) :
    ∃ m, nearest? num den = some m := by
  rw [← Option.ne_none_iff_exists', Ne, nearest?_eq_none_iff hd]
  omega

/-- The whole numbers up to `2 ^ 53` are magnitudes. -/
theorem exists_value_eq_natCast {n : Nat} (h : n ≤ twoPow 53) : ∃ m : Magnitude, m.value = n := by
  obtain rfl | hn := Nat.eq_zero_or_pos n
  · exact ⟨zero, by rw [value_zero, Nat.cast_zero]⟩
  have hreach : twoPow 53 < Double.reach * 1 := by decide +kernel
  obtain ⟨m, hm⟩ := exists_nearest?_eq_some Nat.one_pos (Nat.lt_of_le_of_lt h hreach)
  obtain ⟨e, he, hstart, hvalue, -⟩ := exists_steps_of_nearest? hn Nat.one_pos hm
  refine ⟨m, ?_⟩
  rw [hvalue]
  obtain hle | hgt := le_or_gt e 0
  · -- the steps are fractions of one
    have htoNat : e.toNat = 0 := Int.toNat_of_nonpos hle
    have hround := roundDiv_mul (n * twoPow (-e).toNat) Nat.one_pos
    have hcancel : ((-e).toNat : ℤ) + e = 0 := by omega
    rw [Nat.one_mul] at hround
    rw [htoNat, twoPow_zero, Nat.one_mul, hround, Nat.cast_mul, cast_twoPow, mul_assoc,
      ← zpow_add₀ two_ne_zero, hcancel, zpow_zero, mul_one]
  · -- only the last of the numbers is in the run whose steps are twos
    have hplace : (2 : ℚ) ^ (e + 52) ≤ n := by
      simpa using hstart.resolve_left (by omega)
    have htop : (n : ℚ) ≤ 2 ^ (53 : ℤ) := (Nat.cast_le.mpr h).trans_eq (cast_twoPow 53)
    have he1 : e + 52 ≤ 53 := (zpow_le_zpow_iff_right₀ one_lt_two).mp (hplace.trans htop)
    obtain rfl : e = 1 := by omega
    have hn53 : n = 2 * twoPow 52 := by
      have hge : (twoPow 53 : ℚ) ≤ n := (cast_twoPow 53).trans_le hplace
      exact Nat.le_antisymm h (by exact_mod_cast hge)
    have hunits : n * twoPow (-1 : ℤ).toNat = 2 * twoPow 52 := (Nat.mul_one n).trans hn53
    have hround : roundDiv (2 * twoPow 52) (1 * twoPow (1 : ℤ).toNat) = twoPow 52 :=
      roundDiv_mul (twoPow 52) two_pos
    rw [hunits, hround, hn53, zpow_one, Nat.cast_mul, Nat.cast_two, mul_comm]

end Magnitude

/-! ## The nearest double -/

namespace Double

/-- A number with a sign. -/
def signed (negative : Bool) (q : ℚ) : ℚ := if negative then -q else q

/-- Numbers with the same sign are as far apart as without it; with different signs zero is between them. -/
theorem abs_signed_sub_signed (s t : Bool) {a b : ℚ} (ha : 0 ≤ a) (hb : 0 ≤ b) :
    |signed s a - signed t b| = if s = t then |a - b| else a + b := by
  have hsum : |a + b| = a + b := abs_of_nonneg (add_nonneg ha hb)
  cases s <;> cases t
  · rfl
  · simp [signed, hsum]
  · have hneg : -a - b = -(a + b) := by ring
    simp only [signed, if_true, Bool.false_eq_true, if_false, reduceCtorEq, hneg, abs_neg, hsum]
  · have hneg : -a - -b = -(a - b) := by ring
    simp only [signed, if_true, hneg, abs_neg]

/-- The value of a finite double. -/
def value? : Double → Option ℚ
  | .finite negative m => some (signed negative m.value)
  | _ => none

/-- The integers up to `2 ^ 53` on either side of zero are doubles. -/
theorem exists_value?_eq_intCast {i : Int} (h : i.natAbs ≤ twoPow 53) : ∃ x, value? x = some (i : ℚ) := by
  obtain ⟨m, hm⟩ := Magnitude.exists_value_eq_natCast h
  have habs : (i.natAbs : ℚ) = |(i : ℚ)| := by
    rw [Nat.cast_natAbs, Int.cast_abs]
  by_cases hi : i < 0
  · have hcast : (i : ℚ) < 0 := Int.cast_lt_zero.mpr hi
    refine ⟨.finite true m, ?_⟩
    rw [value?, hm, habs, signed, if_pos rfl, abs_of_neg hcast, neg_neg]
  · have hcast : (0 : ℚ) ≤ i := Int.cast_nonneg (Int.not_lt.mp hi)
    refine ⟨.finite false m, ?_⟩
    rw [value?, hm, habs, signed, if_neg (by decide), abs_of_nonneg hcast]

/-- Is the significand of a double even? -/
def IsEven : Double → Prop
  | .finite _ m => m.significand % 2 = 0
  | _ => False

/-- Is `x`, with the value `r`, the double nearest to `q`?  No double is nearer, and if one with another value is as
near then `x` is the even one. -/
structure IsNearest (q : ℚ) (x : Double) (r : ℚ) : Prop where
  value?_eq : x.value? = some r
  abs_sub_le : ∀ {y s}, value? y = some s → |q - r| ≤ |q - s|
  eq_or_isEven : ∀ {y s}, value? y = some s → |q - r| = |q - s| → s = r ∨ x.IsEven

/-- A fraction with a sign is rounded to the double nearest to it. -/
theorem exists_isNearest_ofFraction {num den : Nat} (hd : 0 < den) (h : num < reach * den) (negative : Bool) :
    ∃ r, IsNearest (signed negative (num / den)) (ofFraction negative num den) r := by
  obtain ⟨m, hm⟩ := Magnitude.exists_nearest?_eq_some hd h
  clear h
  have hround : ofFraction negative num den = .finite negative m := by
    rw [ofFraction, hm]
  have hnearest := Magnitude.nearest?_isNearest hd hm
  have hzero := hnearest Magnitude.zero
  have hq : (0 : ℚ) ≤ num / den := by positivity
  rw [hround]
  generalize (num : ℚ) / den = q at *
  rw [Magnitude.value_zero, sub_zero, abs_of_nonneg hq] at hzero
  have hself : |signed negative q - signed negative m.value| = |q - m.value| := by
    rw [abs_signed_sub_signed _ _ hq m.value_nonneg, if_pos rfl]
  refine ⟨signed negative m.value, rfl, ?_, ?_⟩
  · intro y s hy
    obtain _ | _ | ⟨t, m'⟩ := y
    · contradiction
    · contradiction
    obtain rfl := Option.some.inj hy
    have hm' := m'.value_nonneg
    rw [hself, abs_signed_sub_signed _ _ hq hm']
    split
    · exact (hnearest m').1
    · linarith
  · intro y s hy heq
    obtain _ | _ | ⟨t, m'⟩ := y
    · contradiction
    · contradiction
    obtain rfl := Option.some.inj hy
    have hm' := m'.value_nonneg
    rw [hself, abs_signed_sub_signed _ _ hq hm'] at heq
    split at heq
    · next hsign =>
      refine ((hnearest m').2 heq).imp_left fun hvalue => ?_
      rw [hvalue, hsign]
    · -- a double of the other sign is as near only if both are zero
      have hm'0 : m'.value = 0 := by linarith
      rw [hm'0, add_zero] at heq
      refine (hzero.2 heq).imp_left fun hvalue => ?_
      rw [hm'0, ← hvalue]
      simp [signed]

/-- A number that is a double is the nearest to itself. -/
theorem IsNearest.eq_of_value? {q r : ℚ} {x y : Double} (h : IsNearest q x r) (hy : value? y = some q) : r = q := by
  have hle := h.abs_sub_le hy
  rw [sub_self, abs_zero, abs_nonpos_iff, sub_eq_zero] at hle
  exact hle.symm

end Double

end ColumnLabel
