import ColumnLabel.Proofs.Condition.Integer
import ColumnLabel.Proofs.Number.Literal
import ColumnLabel.Proofs.Number.Nearest
import Mathlib

/-!
# ColumnLabel.Proofs.Condition.Bound

How an integer is compared with a bound.

The bound is read as the double nearest to what is written, and the integer, which is kept as it is, is compared with
the value of that double.  So the answers are exact for bounds that are doubles, as all integers up to `2 ^ 53` are.
For another bound one of them is wrong for each integer from the bound to its double, and none for all others
(`satisfies_comparison_integer`).
-/

namespace ColumnLabel

open Text

/-! ## Orders of numbers -/

section

variable {α β : Type} [LinearOrder α] [LinearOrder β]

/-- Two pairs are ordered the same way when each is less and greater where the other one is. -/
theorem compare_eq_compare_of_iff {a b : α} {c d : β} (hless : a < b ↔ c < d) (hgreater : b < a ↔ d < c) :
    compare a b = compare c d := by
  obtain h | h | h := lt_trichotomy a b
  · rw [compare_lt_iff_lt.mpr h, compare_lt_iff_lt.mpr (hless.mp h)]
  · have heq : c = d := by
      refine le_antisymm (not_lt.mp fun hlt => ?_) (not_lt.mp fun hlt => ?_)
      · exact (hgreater.mpr hlt).ne' h
      · exact (hless.mpr hlt).ne h
    rw [compare_eq_iff_eq.mpr h, compare_eq_iff_eq.mpr heq]
  · rw [compare_gt_iff_gt.mpr h, compare_gt_iff_gt.mpr (hgreater.mp h)]

/-- A number is ordered the same way against two others exactly when they are equal or it lies on the same side of
both. -/
theorem compare_eq_compare_iff {a b c : α} :
    compare a b = compare a c ↔ b = c ∨ a < min b c ∨ max b c < a := by
  constructor
  · intro h
    obtain hab | rfl | hab := lt_trichotomy a b
    · exact .inr (.inl (lt_min hab (compare_lt_iff_lt.mp (h.symm.trans (compare_lt_iff_lt.mpr hab)))))
    · exact .inl (compare_eq_iff_eq.mp (h.symm.trans (compare_eq_iff_eq.mpr rfl)))
    · exact .inr (.inr (max_lt hab (compare_gt_iff_gt.mp (h.symm.trans (compare_gt_iff_gt.mpr hab)))))
  · rintro (rfl | h | h)
    · rfl
    · rw [lt_min_iff] at h
      exact (compare_lt_iff_lt.mpr h.1).trans (compare_lt_iff_lt.mpr h.2).symm
    · rw [max_lt_iff] at h
      exact (compare_gt_iff_gt.mpr h.1).trans (compare_gt_iff_gt.mpr h.2).symm

/-- Comparing an integer with a fraction by cross-multiplication is comparing the values. -/
theorem compare_mul_eq (n num : Int) {den : Nat} (hden : 0 < den) :
    compare (n * den) (num * (1 : Nat)) = compare (n : ℚ) (num / den) := by
  have hden' : (0 : ℚ) < den := Nat.cast_pos.mpr hden
  refine compare_eq_compare_of_iff ?_ ?_
  · rw [lt_div_iff₀ hden', Nat.cast_one, mul_one]
    exact_mod_cast Iff.rfl
  · rw [div_lt_iff₀ hden', Nat.cast_one, mul_one]
    exact_mod_cast Iff.rfl

theorem compare_intCast (p q : Int) : compare (p : ℚ) q = compare p q :=
  compare_eq_compare_of_iff Int.cast_lt Int.cast_lt

namespace Comparison

/-- Does `a` lie on this side of `b`? -/
def Holds (side : Comparison) (a b : α) : Prop :=
  match side with
  | greater => b < a
  | greaterOrEqual => b ≤ a
  | less => a < b
  | lessOrEqual => a ≤ b

instance (side : Comparison) (a b : α) : Decidable (side.Holds a b) :=
  match side with
  | greater => inferInstanceAs (Decidable (b < a))
  | greaterOrEqual => inferInstanceAs (Decidable (b ≤ a))
  | less => inferInstanceAs (Decidable (a < b))
  | lessOrEqual => inferInstanceAs (Decidable (a ≤ b))

theorem accepts_compare (side : Comparison) (a b : α) :
    side.accepts (compare a b) = decide (side.Holds a b) := by
  obtain h | rfl | h := lt_trichotomy a b
  · rw [compare_lt_iff_lt.mpr h]
    cases side <;> simp [accepts, Holds, h, h.le, h.not_gt, h.not_ge]
  · rw [compare_eq_iff_eq.mpr rfl]
    cases side <;> simp [accepts, Holds]
  · rw [compare_gt_iff_gt.mpr h]
    cases side <;> simp [accepts, Holds, h, h.le, h.not_gt, h.not_ge]

/-- The four comparisons together tell how two numbers are ordered, and nothing else. -/
theorem forall_holds_iff {a b : α} {c d : β} :
    (∀ side : Comparison, decide (side.Holds a b) = decide (side.Holds c d)) ↔ compare a b = compare c d := by
  constructor
  · intro h
    exact compare_eq_compare_of_iff (decide_eq_decide.mp (h .less)) (decide_eq_decide.mp (h .greater))
  · intro h side
    rw [← accepts_compare, ← accepts_compare, h]

end Comparison

end

/-! ## Integers against doubles -/

/-- An integer is compared with the value of a finite double. -/
theorem Number.compare?_int_double (n : Int) {x : Double} {r : ℚ} (hx : x.value? = some r) :
    (Number.int n).compare? (.double x) = some (compare (n : ℚ) r) := by
  obtain _ | _ | ⟨negative, m⟩ := x
  · contradiction
  · contradiction
  obtain rfl := Option.some.inj hx
  have hvalue : Double.signed negative m.value = ((Double.fraction negative m).1 : ℚ) / m.den := by
    cases negative <;> simp [Double.signed, Double.fraction, Magnitude.value, neg_div]
  rw [hvalue, ← compare_mul_eq _ _ m.den_pos]
  rfl

/-- Every integer is below positive infinity and above the negative one, as zero is. -/
theorem Number.compare?_int_infinite (n : Int) {m : Int} (hm : m ≠ 0) :
    (Number.int n).compare? (.double (.infinite (decide (m < 0)))) = some (compare 0 m) := by
  obtain h | h := lt_or_gt_of_ne hm
  · rw [compare_gt_iff_gt.mpr h, decide_eq_true h]
    rfl
  · rw [compare_lt_iff_lt.mpr h, decide_eq_false h.not_gt]
    rfl

/-! ## Written bounds -/

namespace Condition

/-- A written integer has no blanks. -/
theorem trim_of_writes {w : List Char} {m : Int} (h : Numeral.Writes w m) : trim w = w := by
  have hblank : ∀ c ∈ w, isBlank c = false := by
    intro c hc
    obtain hdigit | rfl | rfl := h.isDigit_or_sign c hc
    · have hbounds := toNat_bounds_of_isDigit hdigit
      have hzero : '0'.toNat = 48 := rfl
      simp [isBlank]
      omega
    · decide
    · decide
  rw [trim_eq_self_iff]
  exact ⟨fun c hc => hblank c (List.mem_of_mem_head? hc), fun c hc => hblank c (List.mem_of_mem_getLast? hc)⟩

/-- A comparison with a written integer is read as one with the double nearest to the integer. -/
theorem read_compares_writes (side : Comparison) {name : List Char} (hname : trim name = name)
    (hne : name ≠ []) (hfree : HasNoOperator name) {w b : List Char} {m : Int} (hw : Numeral.Writes w m)
    (hb : IsBoundText w b) {bound : Double} (hbound : Double.read? w = some bound) :
    read (String.ofList (comparisonText name side b)) = .compares (String.ofList name) side bound :=
  read_compares_bound side hname hne hfree (trim_of_writes hw) hb hbound

end Condition

namespace Context

variable {context : Context} {name : List Char} {n : Int}

theorem check_compares_integer (hget : context.get? (String.ofList name) = some (.number (.int n)))
    (side : Comparison) {bound : Double} {o : Ordering}
    (hcompare : (Number.int n).compare? (.double bound) = some o) :
    (Condition.compares (String.ofList name) side bound).check context = .ok (side.accepts o) := by
  simp only [Condition.check, hget, hcompare]

/-- Are the four comparisons of a name with a bound, `b` being the text of the bound, answered as `p` stands to `q`? -/
def ComparesAs {α : Type} [LinearOrder α] (context : Context) (logger : String) (name b : List Char)
    (p q : α) : Prop :=
  ∀ side : Comparison, context.satisfies logger (String.ofList (Condition.comparisonText name side b)) =
    (decide (side.Holds p q), [])

/-- Once it is known how they are answered, they are answered as another pair stands exactly if that is ordered the same
way. -/
theorem ComparesAs.iff_compare_eq {α β : Type} [LinearOrder α] [LinearOrder β] {logger : String}
    {b : List Char} {p q : α} (h : ComparesAs context logger name b p q) {p' q' : β} :
    ComparesAs context logger name b p' q' ↔ compare p q = compare p' q' := by
  rw [← Comparison.forall_holds_iff]
  refine forall_congr' fun side => ?_
  rw [h side, Prod.mk.injEq]
  exact and_iff_left rfl

theorem comparesAs_of_compare? (hget : context.get? (String.ofList name) = some (.number (.int n)))
    {logger : String} {b : List Char} {bound : Double}
    (hread : ∀ side, Condition.read (String.ofList (Condition.comparisonText name side b)) =
      .compares (String.ofList name) side bound)
    {α : Type} [LinearOrder α] {p q : α}
    (hcompare : (Number.int n).compare? (.double bound) = some (compare p q)) :
    ComparesAs context logger name b p q := by
  intro side
  rw [satisfies_eq_iff, hread side, check_compares_integer hget side hcompare,
    Comparison.accepts_compare]

section

variable {logger : String} {b : List Char} {m : Int} {negative : Bool}

/-- A bound within reach: the comparison is one with the nearest double. -/
theorem exists_comparesAs_nearest (hget : context.get? (String.ofList name) = some (.number (.int n)))
    (hread : ∀ side, Condition.read (String.ofList (Condition.comparisonText name side b)) =
      .compares (String.ofList name) side (.ofFraction negative m.natAbs 1))
    (hm : m = if negative then -(m.natAbs : Int) else m.natAbs) (hreach : m.natAbs < Double.reach) :
    ∃ x r, Double.IsNearest m x r ∧ ComparesAs context logger name b (n : ℚ) r ∧
      (ComparesAs context logger name b n m ↔
        (∃ y, Double.value? y = some (m : ℚ)) ∨ (n : ℚ) < min r m ∨ max r m < n) := by
  have hvalue : Double.signed negative ((m.natAbs : ℚ) / (1 : Nat)) = m := by
    conv_rhs => rw [hm]
    rw [Nat.cast_one, div_one, Double.signed]
    split <;> simp
  obtain ⟨r, hr⟩ := Double.exists_isNearest_ofFraction Nat.one_pos (by rwa [Nat.mul_one]) negative
  rw [hvalue] at hr
  have hcompares : ComparesAs context logger name b (n : ℚ) r :=
    comparesAs_of_compare? hget hread (Number.compare?_int_double n hr.value?_eq)
  have hdouble : r = m ↔ ∃ y, Double.value? y = some (m : ℚ) := by
    constructor
    · rintro rfl
      exact ⟨_, hr.value?_eq⟩
    · rintro ⟨y, hy⟩
      exact hr.eq_of_value? hy
  refine ⟨_, r, hr, hcompares, ?_⟩
  rw [hcompares.iff_compare_eq, ← compare_intCast, compare_eq_compare_iff, hdouble]

/-- A bound out of reach: every number compares with it as zero does. -/
theorem comparesAs_beyond (hget : context.get? (String.ofList name) = some (.number (.int n)))
    (hread : ∀ side, Condition.read (String.ofList (Condition.comparisonText name side b)) =
      .compares (String.ofList name) side (.ofFraction negative m.natAbs 1))
    (hm : m = if negative then -(m.natAbs : Int) else m.natAbs) (hreach : Double.reach ≤ m.natAbs) :
    ComparesAs context logger name b 0 m ∧
      (ComparesAs context logger name b n m ↔ (0 < m ∧ n < m) ∨ (m < 0 ∧ m < n)) := by
  have hpos : 0 < Double.reach := by decide +kernel
  have hne : m ≠ 0 := by
    rintro rfl
    exact absurd hreach (Nat.not_le.mpr hpos)
  have hnone : Magnitude.nearest? m.natAbs 1 = none :=
    (Magnitude.nearest?_eq_none_iff Nat.one_pos).mpr ((Nat.mul_one _).trans_le hreach)
  clear hreach hpos
  have hsign : decide (m < 0) = negative := by
    cases negative with
    | false =>
        simp only [Bool.false_eq_true, if_false] at hm
        exact decide_eq_false (by omega)
    | true =>
        simp only [if_true] at hm
        exact decide_eq_true (by omega)
  have hinfinite : Double.ofFraction negative m.natAbs 1 = .infinite (decide (m < 0)) := by
    rw [Double.ofFraction, hnone, hsign]
  have hcompares : ComparesAs context logger name b 0 m := by
    refine comparesAs_of_compare? hget hread ?_
    rw [hinfinite]
    exact Number.compare?_int_infinite n hne
  refine ⟨hcompares, ?_⟩
  rw [hcompares.iff_compare_eq]
  obtain hlt | hgt := lt_or_gt_of_ne hne
  · rw [compare_gt_iff_gt.mpr hlt, eq_comm, compare_gt_iff_gt]
    omega
  · rw [compare_lt_iff_lt.mpr hgt, eq_comm, compare_lt_iff_lt]
    omega

end

/-- **Integers and bounds.**  An integer is compared with the double nearest to the bound, and beyond the doubles with
an infinity, for which every number is like zero.  So the comparison with the bound itself is exact for bounds up to
`2 ^ 53`; for another one within reach when it is a double or the integer does not lie between it and the double; and
for one out of reach when the integer lies on the side of zero. -/
theorem satisfies_comparison_integer
    (hget : context.get? (String.ofList name) = some (.number (.int n))) (hname : trim name = name)
    (hne : name ≠ []) (hfree : Condition.HasNoOperator name) {m : Int} {w b : List Char}
    (hw : Numeral.Writes w m) (hb : Condition.IsBoundText w b) (logger : String) :
    (m.natAbs ≤ twoPow 53 → ComparesAs context logger name b n m) ∧
      (m.natAbs < Double.reach → ∃ x r, Double.IsNearest m x r ∧
        ComparesAs context logger name b (n : ℚ) r ∧
        (ComparesAs context logger name b n m ↔
          (∃ y, Double.value? y = some (m : ℚ)) ∨ (n : ℚ) < min r m ∨ max r m < n)) ∧
      (Double.reach ≤ m.natAbs → ComparesAs context logger name b 0 m ∧
        (ComparesAs context logger name b n m ↔ (0 < m ∧ n < m) ∨ (m < 0 ∧ m < n))) := by
  obtain ⟨negative, hbound, hm⟩ := Double.exists_read?_eq_some hw
  have hread := fun side => Condition.read_compares_writes side hname hne hfree hw hb hbound
  refine ⟨fun h => ?_, exists_comparesAs_nearest hget hread hm, comparesAs_beyond hget hread hm⟩
  have hreach : twoPow 53 < Double.reach := by decide +kernel
  obtain ⟨x, r, -, -, hiff⟩ := exists_comparesAs_nearest hget hread hm (Nat.lt_of_le_of_lt h hreach)
  exact hiff.mpr (.inl (Double.exists_value?_eq_intCast h))

/-- The integer after `2 ^ 53` is told from `2 ^ 53`, which is written between quotes.  It is itself no double,
but as a bound it is told from the integer after the next, and so is a bound that is out of reach. -/
theorem satisfies_comparison_integer_quoted :
    (empty.set "x" (.number (.int 9007199254740993))).satisfies Logger.conditions "x > '9007199254740992'" =
        (true, []) ∧
      (empty.set "x" (.number (.int 9007199254740993))).satisfies Logger.conditions "x <= '9007199254740992'" =
        (false, []) ∧
      (empty.set "x" (.number (.int 9007199254740995))).satisfies Logger.conditions "x > 9007199254740993" =
        (true, []) ∧
      (empty.set "x" (.number (.int 9007199254740995))).satisfies Logger.conditions
          (String.ofList ("x >= 1".toList ++ List.replicate 309 '0')) = (false, []) := by
  have hget : ∀ i, (empty.set "x" (.number (.int i))).get? (String.ofList ['x']) = some (.number (.int i)) := by
    intro i
    rw [get?_set]
    exact if_pos (by decide)
  have hfree : Condition.HasNoOperator ['x'] := ⟨by decide, by decide, by decide⟩
  obtain ⟨hexact, -, -⟩ := satisfies_comparison_integer (hget 9007199254740993) (by decide) (by decide) hfree
    (Numeral.writes_ofInt 9007199254740992)
    (Condition.IsBoundText.inQuotes (by decide : Condition.isQuote '\'' = true)) Logger.conditions
  obtain ⟨-, hrounded, -⟩ := satisfies_comparison_integer (hget 9007199254740995) (by decide) (by decide) hfree
    (Numeral.writes_ofInt 9007199254740993) .plain Logger.conditions
  obtain ⟨-, -, hbeyond⟩ := satisfies_comparison_integer (hget 9007199254740995) (by decide) (by decide) hfree
    (Numeral.writes_ofInt (tenPow 309)) .plain Logger.conditions
  have hquoted := hexact (by decide +kernel)
  have hnext : ComparesAs (empty.set "x" (.number (.int 9007199254740995))) Logger.conditions ['x']
      (Numeral.ofInt 9007199254740993) (9007199254740995 : Int) (9007199254740993 : Int) := by
    obtain ⟨x, r, hnearest, -, hiff⟩ := hrounded (by decide +kernel)
    have hdouble : (9007199254740992 : Int).natAbs ≤ twoPow 53 := by decide +kernel
    obtain ⟨y, hy⟩ := Double.exists_value?_eq_intCast hdouble
    -- `2 ^ 53` is one away from the bound, so the double that the bound is read as is not further away
    have hle := hnearest.abs_sub_le hy
    refine hiff.mpr (.inr (.inr (max_lt ?_ (by norm_num))))
    rw [abs_le] at hle
    norm_num at hle ⊢
    linarith [hle.1]
  have hfar := (hbeyond (by decide +kernel)).2.mpr (.inl ⟨by decide +kernel, by decide +kernel⟩)
  have htexts : (String.ofList (Condition.comparisonText ['x'] .greater
        (Condition.quoted '\'' (Numeral.ofInt 9007199254740992))) = "x > '9007199254740992'" ∧
      String.ofList (Condition.comparisonText ['x'] .lessOrEqual
        (Condition.quoted '\'' (Numeral.ofInt 9007199254740992))) = "x <= '9007199254740992'") ∧
      String.ofList (Condition.comparisonText ['x'] .greater (Numeral.ofInt 9007199254740993)) =
        "x > 9007199254740993" ∧
      Condition.comparisonText ['x'] .greaterOrEqual (Numeral.ofInt (tenPow 309)) =
        "x >= 1".toList ++ List.replicate 309 '0' := by
    decide +kernel
  obtain ⟨⟨hgreater, hless⟩, hnextText, hfarText⟩ := htexts
  rw [← hgreater, ← hless, ← hnextText, ← hfarText]
  exact ⟨hquoted .greater, hquoted .lessOrEqual, hnext .greater,
    (hfar .greaterOrEqual).trans (by decide +kernel)⟩

/-- As a bound that integer is read as `2 ^ 53`, and so it is greater than it is. -/
theorem satisfies_comparison_integer_rounded :
    (empty.set "x" (.number (.int 9007199254740993))).satisfies Logger.conditions "x > 9007199254740993" =
        (true, []) ∧
      ¬ (9007199254740993 : Int) > 9007199254740993 := by
  decide +kernel

end Context

end ColumnLabel
