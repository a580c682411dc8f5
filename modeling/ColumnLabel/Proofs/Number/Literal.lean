import ColumnLabel.Proofs.Number.Characters
import ColumnLabel.Proofs.Number.Digits
import ColumnLabel.Proofs.Number.Reach
import Mathlib

/-!
# ColumnLabel.Proofs.Number.Literal

The double that a written integer is read as.

However many digits it has, it is the double nearest to the integer, and infinite where there is none
(`exists_read?_eq_some`).
-/

namespace ColumnLabel

/-! ## Whole decimals -/

namespace Magnitude

theorem reach_le_tenPow : Double.reach ≤ tenPow 400 := by decide +kernel

/-- A whole decimal is rounded as the integer that it is, also where its digits alone put it out of reach. -/
theorem ofDecimal?_zero {ds : List Char} (h : ∀ c ∈ ds, c.isDigit = true) :
    ofDecimal? ds 0 = nearest? (digitsValue ds) 1 := by
  have hvalue := digitsValue_dropWhile_zero ds
  have hds' : ∀ c ∈ ds.dropWhile (· = '0'), c.isDigit = true := fun c hc =>
    h c ((List.dropWhile_suffix _).subset hc)
  rw [ofDecimal?, ← hvalue]
  cases hd : ds.dropWhile (· = '0') with
  | nil => rfl
  | cons c rest =>
      have hne : c ≠ '0' := by
        have hhead := List.head?_dropWhile_not (p := (· = '0')) ds
        rw [hd] at hhead
        simpa using hhead
      obtain ⟨hc, -⟩ := List.forall_mem_cons.mp (hd ▸ hds')
      have hvalue := tenPow_le_digitsValue hc hne rest
      simp only [List.cons_ne_nil, if_false, Int.add_zero]
      rw [if_neg (by omega)]
      split
      · next hlen =>
        -- so many digits are beyond reach
        rw [eq_comm, nearest?_eq_none_iff Nat.one_pos, Nat.mul_one]
        have hpow : tenPow 400 ≤ tenPow rest.length := by
          rw [List.length_cons] at hlen
          exact tenPow_le_tenPow (by omega)
        exact reach_le_tenPow.trans (hpow.trans hvalue)
      · rw [Int.neg_zero, Int.toNat_zero, tenPow_zero, Nat.mul_one]

end Magnitude

/-- A run of digits is a decimal without a fraction and an exponent. -/
theorem readUnsigned?_digits {ds : List Char} (hne : ds ≠ []) (h : ∀ c ∈ ds, c.isDigit = true)
    (negative : Bool) : readUnsigned? negative ds = some ⟨negative, ds, 0⟩ := by
  have htake : ds.takeWhile Char.isDigit = ds := List.takeWhile_eq_self_iff.mpr h
  have hdrop : ds.dropWhile Char.isDigit = [] := List.dropWhile_eq_nil_iff.mpr h
  simp [readUnsigned?, htake, hdrop, hne]

namespace Double

/-- Digits with a sign in front or without are read as the double nearest to what they are worth. -/
theorem readPlain?_digits {cs ds : List Char} {negative : Bool} (hsign : takeSign cs = (negative, ds))
    (hne : ds ≠ []) (h : ∀ c ∈ ds, c.isDigit = true) :
    readPlain? cs = some (ofFraction negative (digitsValue ds) 1) := by
  have hlower : ds.map Char.toLower = ds := by
    exact (List.map_congr_left fun c hc => toLower_of_isDigit (h c hc)).trans (List.map_id ds)
  -- no digit is a letter of one of the words
  have hword : ∀ {word : List Char} (c : Char), c ∈ word → c.isDigit = false → ds ≠ word := by
    rintro word c hc hdigit rfl
    rw [h c hc] at hdigit
    contradiction
  have hinf : ds ≠ "inf".toList := hword 'i' (by decide) (by decide)
  have hinfinity : ds ≠ "infinity".toList := hword 'i' (by decide) (by decide)
  have hnan : ds ≠ "nan".toList := hword 'n' (by decide) (by decide)
  simp only [readPlain?, hsign, hlower, hinf, hinfinity, hnan, or_self, if_false,
    readUnsigned?_digits hne h, Option.map_some, Scientific.toDouble, Magnitude.ofDecimal?_zero h]
  rfl

/-- **Written integers.**  A written integer is read as the double nearest to it. -/
theorem exists_read?_eq_some {w : List Char} {m : Int} (h : Numeral.Writes w m) :
    ∃ negative, read? w = some (ofFraction negative m.natAbs 1) ∧
      m = if negative then -(m.natAbs : Int) else m.natAbs := by
  have hchar : ∀ c ∈ w, c.toNat < 0x7F ∧ isPadding c = false ∧ c ≠ '_' := by
    intro c hc
    obtain hdigit | rfl | rfl := h.isDigit_or_sign c hc
    · exact plain_of_isDigit hdigit
    · decide
    · decide
  have hplain : plainNumber w = w :=
    plainNumber_eq_self (fun c hc => (hchar c hc).1) (fun c hc => (hchar c hc).2.1)
  have hunderscores : dropUnderscores false w = some w :=
    dropUnderscores_eq_some (fun hc => (hchar _ hc).2.2 rfl) false
  rw [read?, hplain, hunderscores, Option.bind_some]
  cases h with
  | unsigned hne hds =>
      exact ⟨false, readPlain?_digits (takeSign_digits hds) hne hds, by simp⟩
  | positive hne hds => exact ⟨false, readPlain?_digits rfl hne hds, by simp⟩
  | negative hne hds =>
      refine ⟨true, ?_, by simp⟩
      rw [Int.natAbs_neg, Int.natAbs_natCast]
      exact readPlain?_digits rfl hne hds

end Double

end ColumnLabel
