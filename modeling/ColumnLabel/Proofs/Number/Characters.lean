import ColumnLabel.Proofs.Number.Digits
import Mathlib

/-!
# ColumnLabel.Proofs.Number.Characters

The characters that a number is written with.

A text that stands for a number is read in plain characters, without its padding and its underscores.  What is left is a
sign, a word, or digits with a point and an exponent, so a plain character of a number is padding, a letter, a digit or
one of four marks (`isNumeralChar_of_read?`).  A text of plain characters that are no padding is read as it is
(`plainNumber_eq_self`).
-/

namespace ColumnLabel

/-! ## Plain characters -/

theorem toLower_of_isDigit {c : Char} (h : c.isDigit = true) : c.toLower = c := by
  have hbounds := toNat_bounds_of_isDigit h
  rw [Char.toLower, dif_neg]
  intro hupper
  have hle : 'A'.toNat ≤ c.toNat := hupper.1
  have hlow : c.toNat ≤ 57 := hbounds.2
  have hhigh : 65 ≤ c.toNat := hle
  omega

theorem plain_of_isDigit {c : Char} (h : c.isDigit = true) :
    c.toNat < 0x7F ∧ isPadding c = false ∧ c ≠ '_' := by
  have hbounds := toNat_bounds_of_isDigit h
  have hzero : '0'.toNat = 48 := rfl
  refine ⟨by omega, ?_, ?_⟩
  · rw [isPadding, decide_eq_false_iff_not]
    rintro (rfl | hcontrol)
    · exact absurd hbounds (by decide)
    · omega
  · rintro rfl
    exact absurd hbounds (by decide)

/-- A number that starts with a digit has no sign. -/
theorem takeSign_digits {ds : List Char} (h : ∀ c ∈ ds, c.isDigit = true) : takeSign ds = (false, ds) := by
  unfold takeSign
  split
  · exact absurd (h _ List.mem_cons_self) (by decide)
  · exact absurd (h _ List.mem_cons_self) (by decide)
  · rfl

/-- A number in plain characters that are no padding is taken as it is. -/
theorem plainNumber_eq_self {cs : List Char} (hplain : ∀ c ∈ cs, c.toNat < 0x7F)
    (hpadding : ∀ c ∈ cs, isPadding c = false) : plainNumber cs = cs := by
  have hmap : cs.map plainChar = cs := by
    exact (List.map_congr_left fun c hc => if_pos (hplain c hc)).trans (List.map_id cs)
  have hdrop : ∀ {ds : List Char}, (∀ c ∈ ds, isPadding c = false) → ds.dropWhile isPadding = ds := by
    intro ds hds
    cases ds with
    | nil => rfl
    | cons c ds => exact List.dropWhile_cons_of_neg (by simp [hds c (by simp)])
  have hreverse : ∀ c ∈ cs.reverse, isPadding c = false := fun c hc => hpadding c (List.mem_reverse.mp hc)
  simp only [plainNumber, hmap, hdrop hpadding, hdrop hreverse, List.reverse_reverse]

theorem dropUnderscores_eq_some {cs : List Char} (h : '_' ∉ cs) (digitBefore : Bool) :
    dropUnderscores digitBefore cs = some cs := by
  induction cs generalizing digitBefore with
  | nil => rfl
  | cons c cs ih =>
      rw [List.mem_cons, not_or] at h
      rw [dropUnderscores, ih h.2, Option.map_some]
      · rintro d rest rfl
        exact absurd rfl h.1
      · rintro rfl
        exact absurd rfl h.1

/-! ## What is left out -/

/-- Only the sign is taken off. -/
theorem mem_takeSign {c : Char} {cs : List Char} (hc : c ∈ cs) :
    c ∈ (takeSign cs).2 ∨ c = '-' ∨ c = '+' := by
  unfold takeSign
  split
  · obtain rfl | hc := List.mem_cons.mp hc
    · exact .inr (.inl rfl)
    · exact .inl hc
  · obtain rfl | hc := List.mem_cons.mp hc
    · exact .inr (.inr rfl)
    · exact .inl hc
  · exact .inl hc

/-- Only underscores are dropped. -/
theorem mem_of_dropUnderscores {digitBefore : Bool} {cs ds : List Char}
    (h : dropUnderscores digitBefore cs = some ds) {c : Char} (hc : c ∈ cs) : c ∈ ds ∨ c = '_' := by
  fun_induction dropUnderscores digitBefore cs generalizing ds with
  | case1 => contradiction
  | case2 digitBefore d cs _ ih =>
      obtain ⟨rest, hrest, rfl⟩ := Option.map_eq_some_iff.mp h
      obtain rfl | hc := List.mem_cons.mp hc
      · exact .inr rfl
      obtain rfl | hc := List.mem_cons.mp hc
      · exact .inl List.mem_cons_self
      · exact (ih hrest hc).imp_left (List.mem_cons_of_mem d)
  | case3 => contradiction
  | case4 => contradiction
  | case5 digitBefore d cs _ _ ih =>
      obtain ⟨rest, hrest, rfl⟩ := Option.map_eq_some_iff.mp h
      obtain rfl | hc := List.mem_cons.mp hc
      · exact .inl List.mem_cons_self
      · exact (ih hrest hc).imp_left (List.mem_cons_of_mem d)

/-- Only padding is left out around a number. -/
theorem mem_plainNumber {c : Char} {cs : List Char} (hc : c ∈ cs) (hpadding : isPadding (plainChar c) = false) :
    plainChar c ∈ plainNumber cs := by
  have hdrop : ∀ {ds : List Char}, plainChar c ∈ ds → plainChar c ∈ ds.dropWhile isPadding := by
    intro ds hds
    rw [← List.takeWhile_append_dropWhile (p := isPadding) (l := ds), List.mem_append] at hds
    obtain htaken | hleft := hds
    · exact absurd (List.mem_takeWhile_imp htaken) (by simp [hpadding])
    · exact hleft
  rw [plainNumber, List.mem_reverse]
  exact hdrop (List.mem_reverse.mpr (hdrop (List.mem_map_of_mem hc)))

/-! ## What is read -/

/-- May a plain character be part of a number? -/
def isNumeralChar (c : Char) : Bool := c.isAlphanum || c = '+' || c = '-' || c = '.' || c = '_'

theorem isNumeralChar_of_isDigit {c : Char} (h : c.isDigit = true) : isNumeralChar c = true := by
  simp [isNumeralChar, Char.isAlphanum, h]

/-- A character that counts as a letter when case is ignored is one. -/
theorem isNumeralChar_of_toLower {c : Char} (h : c.toLower.isAlpha = true) : isNumeralChar c = true := by
  by_cases hupper : c.isUpper = true
  · simp [isNumeralChar, Char.isAlphanum, Char.isAlpha, hupper]
  · rw [Char.toLower, dif_neg (by simpa [Char.isUpper] using hupper)] at h
    simp [isNumeralChar, Char.isAlphanum, h]

theorem isNumeralChar_of_readExponent? {cs : List Char} {e : Int} (h : readExponent? cs = some e) {c : Char}
    (hc : c ∈ cs) : isNumeralChar c = true := by
  obtain hdigits | rfl | rfl := mem_takeSign hc
  · simp only [readExponent?] at h
    split at h
    · contradiction
    · next hall =>
      rw [not_or, Bool.not_eq_true, Bool.not_eq_false', List.all_eq_true] at hall
      exact isNumeralChar_of_isDigit (hall.2 c hdigits)
  · rfl
  · rfl

/-- What follows the digits of a number is nothing, or an exponent behind its mark. -/
theorem isNumeralChar_of_mem_rest {α : Type} {rest : List Char} {whole s : α} {scaled : Int → α}
    (h : (match rest with
      | [] => some whole
      | c :: cs => if c = 'e' ∨ c = 'E' then (readExponent? cs).map scaled else none) = some s) {c : Char}
    (hc : c ∈ rest) : isNumeralChar c = true := by
  cases rest with
  | nil => contradiction
  | cons d rest =>
      simp only at h
      split at h
      · next hmark =>
        obtain ⟨e, he, _⟩ := Option.map_eq_some_iff.mp h
        obtain rfl | hc := List.mem_cons.mp hc
        · obtain rfl | rfl := hmark <;> rfl
        · exact isNumeralChar_of_readExponent? he hc
      · contradiction

/-- A character of a run of digits, or of what follows it. -/
theorem mem_dropWhile_isDigit {c : Char} {cs : List Char} (hc : c ∈ cs) :
    isNumeralChar c = true ∨ c ∈ cs.dropWhile Char.isDigit := by
  rw [← List.takeWhile_append_dropWhile (p := Char.isDigit) (l := cs), List.mem_append] at hc
  exact hc.imp_left fun htaken => isNumeralChar_of_isDigit (List.mem_takeWhile_imp htaken)

/-- A character of a number without a sign is one of its digits, its point, or part of its exponent. -/
theorem isNumeralChar_of_readUnsigned? {negative : Bool} {cs : List Char} {s : Scientific}
    (h : readUnsigned? negative cs = some s) {c : Char} (hc : c ∈ cs) : isNumeralChar c = true := by
  obtain hc | hafter := mem_dropWhile_isDigit hc
  · exact hc
  simp only [readUnsigned?] at h
  split at h
  · next rest hpoint =>
    split at h
    · contradiction
    rw [hpoint] at hafter
    obtain rfl | hfraction := List.mem_cons.mp hafter
    · rfl
    obtain hc | hrest := mem_dropWhile_isDigit hfraction
    · exact hc
    · exact isNumeralChar_of_mem_rest h hrest
  · split at h
    · contradiction
    · exact isNumeralChar_of_mem_rest h hafter

namespace Double

theorem isNumeralChar_of_readPlain? {cs : List Char} {x : Double} (h : readPlain? cs = some x) {c : Char}
    (hc : c ∈ cs) : isNumeralChar c = true := by
  obtain hbody | rfl | rfl := mem_takeSign hc
  · -- the letters of the three words count as themselves in either case
    have hword : ∀ {word : List Char}, word.all Char.isAlpha = true →
        (takeSign cs).2.map Char.toLower = word → isNumeralChar c = true := by
      rintro word hletters rfl
      exact isNumeralChar_of_toLower (List.all_eq_true.mp hletters _ (List.mem_map_of_mem hbody))
    simp only [readPlain?] at h
    split at h
    · next hinfinite =>
      obtain hinf | hinfinity := hinfinite
      · exact hword (by decide) hinf
      · exact hword (by decide) hinfinity
    · split at h
      · next hnan => exact hword (by decide) hnan
      · obtain ⟨s, hs, _⟩ := Option.map_eq_some_iff.mp h
        exact isNumeralChar_of_readUnsigned? hs hbody
  · rfl
  · rfl

/-- **Characters of a number.**  What stands in a text that is read as a number is padding or part of a number. -/
theorem isNumeralChar_of_read? {cs : List Char} {x : Double} (h : read? cs = some x) {c : Char}
    (hc : c ∈ cs) : isPadding (plainChar c) = true ∨ isNumeralChar (plainChar c) = true := by
  rw [read?, Option.bind_eq_some_iff] at h
  obtain ⟨ds, hds, hread⟩ := h
  by_cases hpadding : isPadding (plainChar c) = true
  · exact .inl hpadding
  · right
    have hplain := mem_plainNumber hc (Bool.not_eq_true _ ▸ hpadding)
    obtain hmem | hunderscore := mem_of_dropUnderscores hds hplain
    · exact isNumeralChar_of_readPlain? hread hmem
    · rw [hunderscore]
      rfl

end Double

end ColumnLabel
