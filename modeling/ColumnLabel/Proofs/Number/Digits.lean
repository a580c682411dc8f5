import ColumnLabel.Number.Reading

/-!
# ColumnLabel.Proofs.Number.Digits

The values of decimal digits, and the texts that write an integer with them.

A run of digits is worth less than the power of ten of its length (`digitsValue_lt`), and at least the next lower one
when it starts with no zero (`tenPow_le_digitsValue`).  Each integer is written by its own numeral (`writes_ofInt`), and
the numeral can be told from what follows it when that is no digit (`ofInt_append_inj`).
-/

namespace ColumnLabel

theorem tenPow_le_tenPow {j k : Nat} (h : j ≤ k) : tenPow j ≤ tenPow k :=
  Nat.pow_le_pow_right (by decide) h

/-! ## Runs of digits -/

/-- The digits of ASCII follow each other. -/
theorem toNat_bounds_of_isDigit {c : Char} (h : c.isDigit = true) :
    '0'.toNat ≤ c.toNat ∧ c.toNat ≤ '0'.toNat + 9 := by
  simp only [Char.isDigit, Bool.and_eq_true, decide_eq_true_eq] at h
  exact h

theorem digitsValue_lt {ds : List Char} (h : ∀ c ∈ ds, c.isDigit = true) :
    digitsValue ds < tenPow ds.length := by
  suffices hstep : ∀ n, Nat.ofDigitChars 10 ds n < (n + 1) * tenPow ds.length by
    simpa [digitsValue] using hstep 0
  induction ds with
  | nil => simp
  | cons c ds ih =>
      obtain ⟨hc, hds⟩ := List.forall_mem_cons.mp h
      have hdigit := toNat_bounds_of_isDigit hc
      intro n
      rw [Nat.ofDigitChars_cons, List.length_cons, tenPow_succ]
      calc Nat.ofDigitChars 10 ds (10 * n + (c.toNat - '0'.toNat))
          < (10 * n + (c.toNat - '0'.toNat) + 1) * tenPow ds.length := ih hds _
        _ ≤ (n + 1) * 10 * tenPow ds.length := Nat.mul_le_mul_right _ (by omega)
        _ = (n + 1) * (tenPow ds.length * 10) := by rw [Nat.mul_assoc, Nat.mul_comm 10]

theorem tenPow_le_digitsValue {c : Char} (hc : c.isDigit = true) (hne : c ≠ '0') (ds : List Char) :
    tenPow ds.length ≤ digitsValue (c :: ds) := by
  have hdigit := toNat_bounds_of_isDigit hc
  have hpos : 0 < c.toNat - '0'.toNat := by
    have hzero : c.toNat ≠ '0'.toNat := fun h => hne (Char.toNat_inj.mp h)
    omega
  rw [digitsValue, Nat.ofDigitChars_cons, Nat.ofDigitChars_eq_ofDigitChars_zero]
  calc tenPow ds.length ≤ tenPow ds.length * (10 * 0 + (c.toNat - '0'.toNat)) :=
        Nat.le_mul_of_pos_right _ (by omega)
    _ ≤ _ := Nat.le_add_right _ _

/-- Zeros at the start are worth nothing. -/
theorem digitsValue_dropWhile_zero (ds : List Char) :
    digitsValue (ds.dropWhile (· = '0')) = digitsValue ds := by
  induction ds with
  | nil => rfl
  | cons c ds ih =>
      by_cases hc : c = '0'
      · subst hc
        rw [List.dropWhile_cons_of_pos (by simp), ih]
        rfl
      · rw [List.dropWhile_cons_of_neg (by simpa using hc)]

/-! ## Numerals -/

namespace Numeral

/-- A text does not go on with a digit. -/
def StartsNoDigit (cs : List Char) : Prop := ∀ c ∈ cs.head?, c.isDigit = false

theorem startsNoDigit_nil : StartsNoDigit [] := by simp [StartsNoDigit]

theorem startsNoDigit_cons {c : Char} (h : c.isDigit = false) (cs : List Char) : StartsNoDigit (c :: cs) := by
  simpa [StartsNoDigit] using h

theorem isDigit_of_mem_digits {n : Nat} {c : Char} (hc : c ∈ digits n) : c.isDigit = true :=
  Nat.isDigit_of_mem_toDigits (by decide) (by decide) hc

theorem digits_ne_nil (n : Nat) : digits n ≠ [] := Nat.toDigits_ne_nil

@[simp] theorem digitsValue_digits (n : Nat) : digitsValue (digits n) = n := Nat.ofDigitChars_ten_toDigits

theorem takeWhile_isDigit_digits_append (n : Nat) {rest : List Char} (hrest : StartsNoDigit rest) :
    (digits n ++ rest).takeWhile Char.isDigit = digits n := by
  have hnone : rest.takeWhile Char.isDigit = [] := by
    cases rest with
    | nil => rfl
    | cons c rest => exact List.takeWhile_cons_of_neg (by simp [hrest c rfl])
  rw [List.takeWhile_append_of_pos fun c hc => isDigit_of_mem_digits hc, hnone, List.append_nil]

/-- The digits of a number can be told from what follows them, if that is no digit. -/
theorem digits_append_inj {m n : Nat} {r s : List Char} (hr : StartsNoDigit r) (hs : StartsNoDigit s)
    (h : digits m ++ r = digits n ++ s) : m = n ∧ r = s := by
  have hdigits : digits m = digits n := by
    rw [← takeWhile_isDigit_digits_append m hr, h, takeWhile_isDigit_digits_append n hs]
  have hmn : m = n := by
    rw [← digitsValue_digits m, hdigits, digitsValue_digits]
  rw [hdigits, List.append_cancel_left_eq] at h
  exact ⟨hmn, h⟩

theorem ofInt_of_neg {i : Int} (h : i < 0) : ofInt i = '-' :: digits i.natAbs := by
  rw [ofInt, signed, decide_eq_true h, if_pos rfl]

theorem ofInt_of_nonneg {i : Int} (h : 0 ≤ i) : ofInt i = digits i.natAbs := by
  rw [ofInt, signed, decide_eq_false (Int.not_lt.mpr h), if_neg (by decide)]

/-- A numeral without a sign in front of it has another first character than one with it. -/
theorem digits_append_ne_minus (n : Nat) (r s : List Char) : digits n ++ r ≠ '-' :: s := by
  intro h
  obtain ⟨c, ds, hds⟩ := List.exists_cons_of_ne_nil (digits_ne_nil n)
  have hdigit : c.isDigit = true := isDigit_of_mem_digits (hds ▸ List.mem_cons_self)
  rw [hds, List.cons_append, List.cons_eq_cons] at h
  rw [h.1] at hdigit
  contradiction

/-- The numeral of an integer can be told from what follows it, if that is no digit. -/
theorem ofInt_append_inj {i j : Int} {r s : List Char} (hr : StartsNoDigit r) (hs : StartsNoDigit s)
    (h : ofInt i ++ r = ofInt j ++ s) : i = j ∧ r = s := by
  obtain hi | hi := Int.lt_or_le i 0 <;> obtain hj | hj := Int.lt_or_le j 0
  · rw [ofInt_of_neg hi, ofInt_of_neg hj, List.cons_append, List.cons_append, List.cons_eq_cons] at h
    obtain ⟨habs, hrest⟩ := digits_append_inj hr hs h.2
    exact ⟨by omega, hrest⟩
  · rw [ofInt_of_neg hi, ofInt_of_nonneg hj] at h
    exact absurd h.symm (digits_append_ne_minus _ _ _)
  · rw [ofInt_of_nonneg hi, ofInt_of_neg hj] at h
    exact absurd h (digits_append_ne_minus _ _ _)
  · rw [ofInt_of_nonneg hi, ofInt_of_nonneg hj] at h
    obtain ⟨habs, hrest⟩ := digits_append_inj hr hs h
    exact ⟨by omega, hrest⟩

/-! ## Written integers -/

/-- The texts that write an integer: its digits, with a sign in front or without, and zeros before them or not. -/
inductive Writes : List Char → Int → Prop where
  | unsigned {ds : List Char} (hne : ds ≠ []) (hds : ∀ c ∈ ds, c.isDigit = true) : Writes ds (digitsValue ds)
  | positive {ds : List Char} (hne : ds ≠ []) (hds : ∀ c ∈ ds, c.isDigit = true) :
      Writes ('+' :: ds) (digitsValue ds)
  | negative {ds : List Char} (hne : ds ≠ []) (hds : ∀ c ∈ ds, c.isDigit = true) :
      Writes ('-' :: ds) (-(digitsValue ds : Int))

/-- The numeral of an integer writes it. -/
theorem writes_ofInt (i : Int) : Writes (ofInt i) i := by
  have hne := digits_ne_nil i.natAbs
  have hds : ∀ c ∈ digits i.natAbs, c.isDigit = true := fun c hc => isDigit_of_mem_digits hc
  obtain hi | hi := Int.lt_or_le i 0
  · have hwrites := Writes.negative hne hds
    have habs : -(i.natAbs : Int) = i := by omega
    rw [digitsValue_digits, habs] at hwrites
    rwa [ofInt_of_neg hi]
  · have hwrites := Writes.unsigned hne hds
    have habs : (i.natAbs : Int) = i := by omega
    rw [digitsValue_digits, habs] at hwrites
    rwa [ofInt_of_nonneg hi]

theorem Writes.ne_nil {w : List Char} {m : Int} (h : Writes w m) : w ≠ [] := by
  cases h with
  | unsigned hne => exact hne
  | positive => exact List.cons_ne_nil _ _
  | negative => exact List.cons_ne_nil _ _

/-- A written integer consists of digits and signs. -/
theorem Writes.isDigit_or_sign {w : List Char} {m : Int} (h : Writes w m) :
    ∀ c ∈ w, c.isDigit = true ∨ c = '+' ∨ c = '-' := by
  intro c hc
  cases h with
  | unsigned _ hds => exact .inl (hds c hc)
  | positive _ hds =>
      obtain rfl | hc := List.mem_cons.mp hc
      · exact .inr (.inl rfl)
      · exact .inl (hds c hc)
  | negative _ hds =>
      obtain rfl | hc := List.mem_cons.mp hc
      · exact .inr (.inr rfl)
      · exact .inl (hds c hc)

end Numeral

end ColumnLabel
