/-!
# ColumnLabel.Number.Rounding

Powers of two, in which doubles are measured, powers of ten, in which decimals are, and rounding a quotient of
natural numbers to the nearest whole number, a half to the even neighbour.  Every rounding of this library, to
doubles and to thousandths, is this one.

The main statements are that the rounded quotient lies within half a unit of the quotient
(`two_mul_roundDiv_le`, `le_two_mul_roundDiv`) and that it is even when both neighbours are equally near
(`even_roundDiv_of_half`).
-/

namespace ColumnLabel

/-! ## Powers -/

/-- A power of two. -/
def twoPow (k : Nat) : Nat := Nat.pow 2 k

/-- A power of ten. -/
def tenPow (k : Nat) : Nat := Nat.pow 10 k

theorem twoPow_pos (k : Nat) : 0 < twoPow k := Nat.pow_pos (by decide)

theorem tenPow_pos (k : Nat) : 0 < tenPow k := Nat.pow_pos (by decide)

@[simp] theorem twoPow_zero : twoPow 0 = 1 := rfl

@[simp] theorem tenPow_zero : tenPow 0 = 1 := rfl

theorem twoPow_succ (k : Nat) : twoPow (k + 1) = twoPow k * 2 := rfl

theorem tenPow_succ (k : Nat) : tenPow (k + 1) = tenPow k * 10 := rfl

/-! ## Rounding -/

/-- The whole number nearest to `n / d`; of two equally near ones the even one. -/
def roundDiv (n d : Nat) : Nat :=
  let q := n / d
  let r := n % d
  if 2 * r < d ∨ (2 * r = d ∧ q % 2 = 0) then q else q + 1

private theorem divide (n d : Nat) : d * (n / d) + n % d = n := Nat.div_add_mod n d

/-- The rounded quotient exceeds the quotient by half a unit at most. -/
theorem two_mul_roundDiv_le {n d : Nat} (hd : 0 < d) : 2 * (d * roundDiv n d) ≤ 2 * n + d := by
  have hn := divide n d
  have hr := Nat.mod_lt n hd
  unfold roundDiv
  simp only
  split
  · omega
  · rw [Nat.mul_add]; omega

/-- The rounded quotient falls short of the quotient by half a unit at most. -/
theorem le_two_mul_roundDiv {n d : Nat} (hd : 0 < d) : 2 * n ≤ 2 * (d * roundDiv n d) + d := by
  have hn := divide n d
  have hr := Nat.mod_lt n hd
  unfold roundDiv
  simp only
  split
  · omega
  · rw [Nat.mul_add]; omega

/-- A half goes to the even neighbour. -/
theorem even_roundDiv_of_half {n d : Nat} (h : 2 * (n % d) = d) : roundDiv n d % 2 = 0 := by
  by_cases hq : n / d % 2 = 0
  · simp [roundDiv, h, hq]
  · simp only [roundDiv, h, hq, Nat.lt_irrefl, and_false, or_self, if_false]
    omega

/-- A whole quotient is kept. -/
theorem roundDiv_mul (q : Nat) {d : Nat} (hd : 0 < d) : roundDiv (d * q) d = q := by
  simp [roundDiv, Nat.mul_div_cancel_left q hd, Nat.mul_mod_right, hd]

end ColumnLabel
