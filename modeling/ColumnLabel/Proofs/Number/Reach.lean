import ColumnLabel.Number.Double
import Mathlib

/-!
# ColumnLabel.Proofs.Number.Reach

The fractions that have a nearest double.

The largest double is one step of `2 ^ 971` below `2 ^ 1024`.  A fraction less than half a step beyond it
still rounds to it.  Half a step beyond lies `Double.reach`: the even neighbour there would be `2 ^ 1024`,
which is no double any more.  The main statement is that exactly the fractions from `Double.reach` on have
no nearest magnitude (`nearest?_eq_none_iff`); `isSome_ofInt?_iff` and `isSome_ofIntDiv?_iff` say what that
means for an integer and for the quotient of one.
-/

namespace ColumnLabel

/-- The least number that is too large for the doubles, rounding included. -/
def Double.reach : Nat := twoPow 1024 - twoPow 970

/-! ## Scaled comparisons -/

theorem cast_twoPow (k : Nat) : ((twoPow k : Nat) : ℚ) = 2 ^ (k : ℤ) := by
  unfold twoPow
  rw [zpow_natCast]
  exact Nat.cast_pow 2 k

/-- Scaling both sides by the two halves of an exponent is scaling one side by the whole of it. -/
theorem mul_twoPow_le_iff (a b : Nat) (k : Int) :
    a * twoPow k.toNat ≤ b * twoPow (-k).toNat ↔ (a : ℚ) * 2 ^ k ≤ b := by
  have hpos : (0 : ℚ) < 2 ^ ((-k).toNat : ℤ) := by positivity
  have hk : (k.toNat : ℤ) = k + (-k).toNat := by omega
  rw [← Nat.cast_le (α := ℚ), Nat.cast_mul, Nat.cast_mul, cast_twoPow, cast_twoPow, hk,
    zpow_add₀ two_ne_zero, ← mul_assoc]
  exact mul_le_mul_iff_of_pos_right hpos

theorem mul_twoPow_lt_iff (a b : Nat) (k : Int) :
    b * twoPow (-k).toNat < a * twoPow k.toNat ↔ (b : ℚ) < a * 2 ^ k := by
  have h := mul_twoPow_le_iff a b k
  rw [← Nat.not_le, h, not_le]

theorem mul_two_zpow_le (a : Nat) {j k : Int} (h : j ≤ k) : (a : ℚ) * 2 ^ j ≤ a * 2 ^ k :=
  mul_le_mul_of_nonneg_left (zpow_le_zpow_right₀ one_le_two h) (Nat.cast_nonneg a)

/-- The powers of two around a positive number. -/
theorem log2_bounds {n : Nat} (hn : 0 < n) :
    (2 : ℚ) ^ (n.log2 : ℤ) ≤ n ∧ (n : ℚ) < 2 ^ (n.log2 + 1 : ℤ) := by
  constructor
  · rw [← cast_twoPow]
    exact Nat.cast_le.mpr (Nat.log2_self_le (by omega))
  · have h : n < twoPow (n.log2 + 1) := Nat.lt_log2_self
    have hcast := (Nat.cast_lt (α := ℚ)).mpr h
    rwa [cast_twoPow, Nat.cast_succ] at hcast

/-! ## Bounds on rounded quotients -/

/-- A quotient below a whole number does not round to one above it. -/
theorem roundDiv_le_of_lt {n d q : Nat} (hd : 0 < d) (h : n < d * q) : roundDiv n d ≤ q := by
  have hround : 2 * (d * roundDiv n d) ≤ 2 * n + d := two_mul_roundDiv_le hd
  refine Nat.le_of_not_lt fun hq => ?_
  have hnext : d * (q + 1) ≤ d * roundDiv n d := Nat.mul_le_mul_left d hq
  rw [Nat.mul_succ] at hnext
  omega

/-- A quotient from a whole number on does not round to one below it. -/
theorem le_roundDiv_of_le {n d q : Nat} (hd : 0 < d) (h : d * q ≤ n) : q ≤ roundDiv n d := by
  have hround : 2 * n ≤ 2 * (d * roundDiv n d) + d := le_two_mul_roundDiv hd
  refine Nat.le_of_not_lt fun hq => ?_
  have hnext : d * (roundDiv n d + 1) ≤ d * q := Nat.mul_le_mul_left d hq
  rw [Nat.mul_succ] at hnext
  omega

/-- An even whole number is reached from half a unit below it on. -/
theorem le_roundDiv_iff_of_even {n d q : Nat} (hd : 0 < d) (hq : q % 2 = 0) :
    q ≤ roundDiv n d ↔ 2 * (d * q) ≤ 2 * n + d := by
  constructor
  · intro h
    have hround : 2 * (d * roundDiv n d) ≤ 2 * n + d := two_mul_roundDiv_le hd
    have hscaled : d * q ≤ d * roundDiv n d := Nat.mul_le_mul_left d h
    omega
  · intro h
    have hround : 2 * n ≤ 2 * (d * roundDiv n d) + d := le_two_mul_roundDiv hd
    refine Nat.le_of_not_lt fun hlt => ?_
    have hscaled : d * (roundDiv n d + 1) ≤ d * q := Nat.mul_le_mul_left d hlt
    rw [Nat.mul_succ] at hscaled
    -- what is left is a half exactly, and a half would have gone to the even `q`
    have hn : n = d * roundDiv n d + (n - d * roundDiv n d) := by omega
    have hhalf : 2 * (n - d * roundDiv n d) = d := by omega
    have hmod : n % d = n - d * roundDiv n d := by
      rw [hn, Nat.mul_add_mod, Nat.mod_eq_of_lt (by omega), ← hn]
    have heven : roundDiv n d % 2 = 0 := even_roundDiv_of_half (by omega)
    have hnext : d * (roundDiv n d + 1) = d * q := by
      rw [Nat.mul_succ]
      omega
    have hsucc : roundDiv n d + 1 = q := Nat.eq_of_mul_eq_mul_left hd hnext
    omega

namespace Magnitude

/-! ## Between two powers of two -/

/-- The power of two at or below a fraction, and the next one above it. -/
theorem floorLog2_bounds {num den : Nat} (hn : 0 < num) (hd : 0 < den) :
    (den : ℚ) * 2 ^ floorLog2 num den ≤ num ∧ (num : ℚ) < den * 2 ^ (floorLog2 num den + 1) := by
  obtain ⟨hnlow, hnhigh⟩ := log2_bounds hn
  obtain ⟨hdlow, hdhigh⟩ := log2_bounds hd
  unfold floorLog2
  simp only
  generalize hg : (num.log2 : ℤ) - den.log2 = guess
  split
  · next h =>
    refine ⟨(mul_twoPow_le_iff den num guess).mp h, ?_⟩
    calc (num : ℚ) < 2 ^ (num.log2 + 1 : ℤ) := hnhigh
      _ = 2 ^ (den.log2 : ℤ) * 2 ^ (guess + 1) := by
        rw [← zpow_add₀ two_ne_zero]
        congr 1
        omega
      _ ≤ den * 2 ^ (guess + 1) := by gcongr
  · next h =>
    rw [mul_twoPow_le_iff, not_le] at h
    refine ⟨?_, by rwa [sub_add_cancel]⟩
    calc (den : ℚ) * 2 ^ (guess - 1) ≤ 2 ^ (den.log2 + 1 : ℤ) * 2 ^ (guess - 1) := by gcongr
      _ = 2 ^ (num.log2 : ℤ) := by
        rw [← zpow_add₀ two_ne_zero]
        congr 1
        omega
      _ ≤ num := hnlow

/-- The units of a fraction whose step is `2 ^ e` are at most `2 ^ 53` when it lies below
`2 ^ (e + 53)`. -/
theorem roundDiv_units_le {num den : Nat} {e : Int} (hd : 0 < den)
    (h : (num : ℚ) < den * 2 ^ (e + 53)) :
    roundDiv (num * twoPow (-e).toNat) (den * twoPow e.toNat) ≤ 2 * run := by
  refine roundDiv_le_of_lt (Nat.mul_pos hd (twoPow_pos _)) ?_
  have hscaled : (num : ℚ) < (den * (2 * run) : Nat) * 2 ^ e := by
    have hrun : ((2 * run : Nat) : ℚ) = 2 ^ (53 : ℤ) := cast_twoPow 53
    rw [Nat.cast_mul, hrun, mul_assoc, ← zpow_add₀ two_ne_zero, add_comm 53 e]
    exact h
  have hlt := (mul_twoPow_lt_iff (den * (2 * run)) num e).mpr hscaled
  rwa [Nat.mul_right_comm] at hlt

/-- They are at least `2 ^ 52` when it lies from `2 ^ (e + 52)` on. -/
theorem le_roundDiv_units {num den : Nat} {e : Int} (hd : 0 < den)
    (h : (den : ℚ) * 2 ^ (e + 52) ≤ num) :
    run ≤ roundDiv (num * twoPow (-e).toNat) (den * twoPow e.toNat) := by
  refine le_roundDiv_of_le (Nat.mul_pos hd (twoPow_pos _)) ?_
  have hscaled : ((den * run : Nat) : ℚ) * 2 ^ e ≤ num := by
    have hrun : ((run : Nat) : ℚ) = 2 ^ (52 : ℤ) := cast_twoPow 52
    rw [Nat.cast_mul, hrun, mul_assoc, ← zpow_add₀ two_ne_zero, add_comm 52 e]
    exact h
  have hle := (mul_twoPow_le_iff (den * run) num e).mpr hscaled
  rwa [Nat.mul_right_comm] at hle

/-! ## Reach -/

theorem reach_eq : Double.reach = twoPow 970 * (4 * run - 1) := by decide +kernel

theorem lt_reach_mul_of_lt {num den : Nat} (h : (num : ℚ) < den * 2 ^ (1023 : ℤ)) :
    num < Double.reach * den := by
  have hcast : (num : ℚ) < (den * twoPow 1023 : Nat) := by
    rwa [Nat.cast_mul, cast_twoPow]
  have hle : den * twoPow 1023 ≤ den * Double.reach := Nat.mul_le_mul_left den (by decide +kernel)
  rw [Nat.mul_comm Double.reach den]
  exact Nat.lt_of_lt_of_le (Nat.cast_lt.mp hcast) hle

theorem reach_mul_le_of_le {num den : Nat} (h : (den : ℚ) * 2 ^ (1024 : ℤ) ≤ num) :
    Double.reach * den ≤ num := by
  have hcast : ((den * twoPow 1024 : Nat) : ℚ) ≤ num := by
    rwa [Nat.cast_mul, cast_twoPow]
  have hle : den * Double.reach ≤ den * twoPow 1024 := Nat.mul_le_mul_left den (Nat.sub_le _ _)
  rw [Nat.mul_comm Double.reach den]
  exact Nat.le_trans hle (Nat.cast_le.mp hcast)

/-- The place that a fraction would have in the order of the magnitudes, its step being `2 ^ e`. -/
def ordinalAt (e : Int) (num den : Nat) : Nat :=
  (e + 1074).toNat * run + roundDiv (num * twoPow (-e).toNat) (den * twoPow e.toNat)

theorem nearest?_eq_none_iff_of_pos {num den : Nat} (hn : 0 < num) :
    nearest? num den = none ↔
      count ≤ ordinalAt (max (-1074) (floorLog2 num den - 52)) num den := by
  have hne : num ≠ 0 := by omega
  simp only [nearest?, if_neg hne, ordinalAt]
  split
  · next h => simp [h]
  · next h => simp [Nat.le_of_not_lt h]

/-- Below `2 ^ 1023` the steps and their number leave room. -/
theorem ordinalAt_lt_count {num den : Nat} {e : Int} (hd : 0 < den) (he : e ≤ 970)
    (h : (num : ℚ) < den * 2 ^ (e + 53)) : ordinalAt e num den < count := by
  have hunits := roundDiv_units_le hd h
  have hruns : (e + 1074).toNat * run ≤ 2044 * run := Nat.mul_le_mul_right run (by omega)
  have hrun : 0 < run := twoPow_pos 52
  have hcount : count = 2047 * run := rfl
  unfold ordinalAt
  omega

/-- From `2 ^ 1024` on they leave none. -/
theorem count_le_ordinalAt {num den : Nat} {e : Int} (hd : 0 < den) (he : 972 ≤ e)
    (h : (den : ℚ) * 2 ^ (e + 52) ≤ num) : count ≤ ordinalAt e num den := by
  have hunits := le_roundDiv_units hd h
  have hruns : 2046 * run ≤ (e + 1074).toNat * run := Nat.mul_le_mul_right run (by omega)
  have hcount : count = 2047 * run := rfl
  unfold ordinalAt
  omega

/-- In between it depends on whether the units round up to a power of two. -/
theorem count_le_ordinalAt_top_iff {num den : Nat} (hd : 0 < den) :
    count ≤ ordinalAt 971 num den ↔ Double.reach * den ≤ num := by
  have hpos : 0 < den * twoPow 971 := Nat.mul_pos hd (twoPow_pos 971)
  have hunits : 2 * run ≤ roundDiv num (den * twoPow 971) ↔
      2 * (den * twoPow 971 * (2 * run)) ≤ 2 * num + den * twoPow 971 :=
    le_roundDiv_iff_of_even hpos (by omega)
  have hordinal : ordinalAt 971 num den = 2045 * run + roundDiv num (den * twoPow 971) := by
    show 2045 * run + roundDiv (num * twoPow 0) (den * twoPow 971) = _
    rw [twoPow_zero, Nat.mul_one]
  have hcount : count = 2047 * run := rfl
  have hstep : den * twoPow 971 = 2 * (den * twoPow 970) := by
    rw [twoPow_succ]
    ring
  have hreach : Double.reach * den = den * twoPow 970 * (4 * run - 1) := by
    rw [reach_eq]
    ring
  have hlast : den * twoPow 970 * (4 * run) =
      den * twoPow 970 * (4 * run - 1) + den * twoPow 970 := by
    rw [← Nat.mul_succ, Nat.succ_eq_add_one, Nat.sub_add_cancel (by decide +kernel)]
  have hwhole : 2 * (den * twoPow 971 * (2 * run)) = 2 * (den * twoPow 970 * (4 * run)) := by
    rw [hstep]
    ring
  omega

/-- **Reach.**  A fraction has no nearest magnitude exactly when it is at least `Double.reach`. -/
theorem nearest?_eq_none_iff {num den : Nat} (hd : 0 < den) :
    nearest? num den = none ↔ Double.reach * den ≤ num := by
  obtain rfl | hn := Nat.eq_zero_or_pos num
  · have hpos : 0 < Double.reach * den := Nat.mul_pos (by decide +kernel) hd
    simp only [nearest?, if_true, reduceCtorEq, false_iff]
    omega
  obtain ⟨hlow, hhigh⟩ := floorLog2_bounds hn hd
  rw [nearest?_eq_none_iff_of_pos hn]
  generalize floorLog2 num den = place at hlow hhigh ⊢
  rcases lt_trichotomy place 1023 with hplace | rfl | hplace
  · have hunits : (num : ℚ) < den * 2 ^ (max (-1074) (place - 52) + 53) :=
      lt_of_lt_of_le hhigh (mul_two_zpow_le den (by omega))
    have hcount := ordinalAt_lt_count hd (by omega) hunits
    have hreach := lt_reach_mul_of_lt (lt_of_lt_of_le hhigh (mul_two_zpow_le den (by omega)))
    omega
  · exact count_le_ordinalAt_top_iff hd
  · have he : max (-1074) (place - 52) + 52 = place := by omega
    have hcount := count_le_ordinalAt (e := max (-1074) (place - 52)) hd (by omega) (by rwa [he])
    have hreach := reach_mul_le_of_le (le_trans (mul_two_zpow_le den (by omega)) hlow)
    omega

end Magnitude

namespace Double

/-- An integer has a nearest double exactly below `Double.reach`. -/
theorem isSome_ofInt?_iff (i : Int) : (ofInt? i).isSome ↔ i.natAbs < reach := by
  have h : Magnitude.nearest? i.natAbs 1 = none ↔ reach * 1 ≤ i.natAbs :=
    Magnitude.nearest?_eq_none_iff Nat.one_pos
  rw [ofInt?, Option.isSome_map, Option.isSome_iff_ne_none, Ne, h]
  omega

/-- A quotient of an integer has a nearest double exactly below `Double.reach`. -/
theorem isSome_ofIntDiv?_iff (i : Int) {n : Nat} (hn : 0 < n) :
    (ofIntDiv? i n).isSome ↔ i.natAbs < reach * n := by
  rw [ofIntDiv?, Option.isSome_map, Option.isSome_iff_ne_none, Ne, Magnitude.nearest?_eq_none_iff hn]
  omega

end Double

end ColumnLabel
