import ColumnLabel.Text.Character
import Mathlib

/-!
# ColumnLabel.Proofs.Text.Case

Spellings of a word of capital letters.

Whatever counts as such a word when case is ignored has the word for its capitals, as long as two letters stay out of
it: the dotted capital I, which counts as an `i` but is its own capital, and the sign of the kelvin, which does so
with a `k` (`upper_of_map_foldChar_eq`).
-/

namespace ColumnLabel.Text

/-! ## Letters -/

theorem toNat_bounds_of_isUpper {c : Char} (h : c.isUpper = true) : 65 ≤ c.toNat ∧ c.toNat ≤ 90 := by
  simpa [Char.isUpper, UInt32.le_iff_toNat_le] using h

/-- What holds of the capital letters of ASCII one by one holds of all of them. -/
theorem forall_isUpper {P : Char → Prop} (h : ∀ n < 128, (Char.ofNat n).isUpper = true → P (Char.ofNat n)) {c : Char}
    (hc : c.isUpper = true) : P c := by
  have hbounds := toNat_bounds_of_isUpper hc
  have hP := h c.toNat (by omega)
  rw [Char.ofNat_toNat] at hP
  exact hP hc

theorem foldChar_of_isUpper {c : Char} (h : c.isUpper = true) : foldChar c = c.toLower :=
  forall_isUpper (P := fun c => foldChar c = c.toLower) (by decide) h

theorem capitals_of_isUpper {c : Char} (h : c.isUpper = true) : capitals c = [c] ∧ capitals c.toLower = [c] :=
  forall_isUpper (P := fun c => capitals c = [c] ∧ capitals c.toLower = [c]) (by decide) h

theorem toLower_of_not_isUpper {c : Char} (h : c.isUpper = false) : c.toLower = c := by
  rw [Char.toLower, dif_neg]
  simpa [Char.isUpper] using h

theorem toNat_toLower_of_isUpper {c : Char} (h : c.isUpper = true) : c.toLower.toNat = c.toNat + 32 :=
  forall_isUpper (P := fun c => c.toLower.toNat = c.toNat + 32) (by decide) h

/-- The letters with the small letter of a capital one are that one and its small letter. -/
theorem eq_or_eq_toLower {c f : Char} (hf : f.isUpper = true) (h : c.toLower = f.toLower) :
    c = f ∨ c = f.toLower := by
  cases hc : c.isUpper with
  | false =>
      rw [toLower_of_not_isUpper hc] at h
      exact .inr h
  | true =>
      have hnat := congrArg Char.toNat h
      rw [toNat_toLower_of_isUpper hc, toNat_toLower_of_isUpper hf, Nat.add_right_cancel_iff] at hnat
      exact .inl (Char.toNat_inj.mp hnat)

/-- When case is ignored, four letters beyond ASCII count as the capital one as well. -/
theorem eq_of_foldChar_eq {c f : Char} (hf : f.isUpper = true) (h : foldChar c = foldChar f) :
    c = f ∨ c = f.toLower ∨ (f = 'I' ∧ (c = 'ı' ∨ c = 'İ')) ∨ (f = 'S' ∧ c = 'ſ') ∨ f = 'K' := by
  have hletter : ∀ small, small = f.toLower → f = small.toUpper :=
    fun small hsmall => hsmall ▸ forall_isUpper (P := fun f => f = f.toLower.toUpper) (by decide) hf
  rw [foldChar_of_isUpper hf, foldChar] at h
  split at h
  · next hc => exact .inr (.inr (.inl ⟨hletter 'i' h, hc⟩))
  · split at h
    · next hc => exact .inr (.inr (.inr (.inl ⟨hletter 's' h, hc⟩)))
    · split at h
      · exact .inr (.inr (.inr (.inr (hletter 'k' h))))
      · obtain hc | hc := eq_or_eq_toLower hf h
        · exact .inl hc
        · exact .inr (.inl hc)

/-- Of these all have the capital one for their capital, but the two that are their own. -/
theorem capitals_of_foldChar_eq {c f : Char} (hf : f.isUpper = true) (hk : f ≠ 'K')
    (h : foldChar c = foldChar f) (hc : c ≠ 'İ') : capitals c = [f] := by
  obtain rfl | rfl | ⟨rfl, rfl | rfl⟩ | ⟨rfl, rfl⟩ | rfl := eq_of_foldChar_eq hf h
  · exact (capitals_of_isUpper hf).1
  · exact (capitals_of_isUpper hf).2
  · decide
  · exact absurd rfl hc
  · decide
  · exact absurd rfl hk

/-! ## Words -/

/-- **Spellings.**  The capitals of a text that counts as a word of capital letters when case is ignored are that word,
unless the word has a `K` or the text a dotted capital I. -/
theorem upper_of_map_foldChar_eq {word cs : List Char} (hword : ∀ f ∈ word, f.isUpper = true ∧ f ≠ 'K')
    (h : cs.map foldChar = word.map foldChar) (hcs : 'İ' ∉ cs) : upper cs = word := by
  induction word generalizing cs with
  | nil =>
      rw [List.map_nil, List.map_eq_nil_iff] at h
      rw [h]
      rfl
  | cons f word ih =>
      obtain ⟨c, cs, rfl, hc, hrest⟩ := List.map_eq_cons_iff.mp h
      rw [List.mem_cons, not_or] at hcs
      obtain ⟨⟨hf, hk⟩, hword⟩ := List.forall_mem_cons.mp hword
      have hletter := capitals_of_foldChar_eq hf hk hc (Ne.symm hcs.1)
      show capitals c ++ upper cs = f :: word
      rw [hletter, ih hword hrest hcs.2]
      rfl

end ColumnLabel.Text
