import ColumnLabel.Proofs.Column.Statistics
import Mathlib

/-!
# ColumnLabel.Proofs.Column.Integers

The statistics of a column of integers.

As integers are added exactly, the order of the rows does not matter, and neither do the rows that have no number.  The
statistics of integers are those of the list of them: its sum, its length, its least and its greatest member
(`ofNumbers_map_int`).  Only the mean may be out of reach.  The main statements are that the statistics describe the
integers (`exists_describes`) and that they outlast every change to the rows that keeps the numbers
(`AreIntegers.ofRows_eq_of_changes`).
-/

namespace ColumnLabel

theorem Number.lt_int (a b : Int) : (Number.int a).lt (.int b) = decide (a < b) := by
  have hcompare : (Number.int a).compare? (.int b) = some (compare a b) := by
    simp [Number.compare?, Number.place?, Number.Place.compare]
  simp only [Number.lt, hcompare, ← compare_lt_iff_lt]
  cases compare a b <;> rfl

namespace Statistics

/-! ## Rows and their numbers -/

/-- Are all numeric cells under a key integers? -/
def AreIntegers (key : Datum) (rows : List Datum) : Prop :=
  ∀ r d, .record r ∈ rows → r.get? key = some d → d.IsNumeric → ∃ i, d = .int i

/-- The integer that a row has under a key, if there is one. -/
def integerIn? (key : Datum) : Datum → Option Int
  | .record r =>
    match r.get? key with
    | some (.int i) => some i
    | _ => none
  | _ => none

/-- The integers under a key, in the order of the rows. -/
def integers (key : Datum) (rows : List Datum) : List Int := rows.filterMap (integerIn? key)

variable {key row : Datum} {rows others : List Datum}

/-- A row without a number has no integer. -/
theorem integerIn?_eq_none (h : ¬ HasNumber key row) : integerIn? key row = none := by
  cases row with
  | record r =>
      rw [integerIn?]
      split
      · next i hi => exact absurd ⟨r, .int i, rfl, hi, trivial⟩ h
      · rfl
  | _ => rfl

/-- Where all numeric cells are integers, the number in a row is its integer. -/
theorem AreIntegers.numberIn?_eq (h : AreIntegers key rows) (hrow : row ∈ rows) :
    numberIn? key row = (integerIn? key row).map .int := by
  by_cases hnumber : HasNumber key row
  · obtain ⟨r, d, rfl, hd, hnumeric⟩ := hnumber
    obtain ⟨i, rfl⟩ := h r d hrow hd hnumeric
    simp [numberIn?, integerIn?, hd, numeric?]
  · have hnone : numberIn? key row = none := by
      rwa [← Option.not_isSome_iff_eq_none, isSome_numberIn?_iff]
    rw [hnone, integerIn?_eq_none hnumber]
    rfl

theorem AreIntegers.filterMap_numberIn? (h : AreIntegers key rows) :
    rows.filterMap (numberIn? key) = (integers key rows).map .int := by
  rw [integers, List.map_filterMap]
  exact List.filterMap_congr fun row hrow => h.numberIn?_eq hrow

/-- There are no integers exactly where no row has a number. -/
theorem AreIntegers.integers_eq_nil_iff (h : AreIntegers key rows) :
    integers key rows = [] ↔ ∀ row ∈ rows, ¬ HasNumber key row := by
  rw [integers, List.filterMap_eq_nil_iff]
  refine forall₂_congr fun row hrow => ?_
  rw [← isSome_numberIn?_iff, h.numberIn?_eq hrow, Option.isSome_map, Option.not_isSome_iff_eq_none]

/-! ## Changes to the rows -/

/-- The changes to rows that keep their numbers: any other order, and a row more that has none. -/
inductive IsChange (key : Datum) : List Datum → List Datum → Prop where
  | reorder {rows others : List Datum} (h : rows.Perm others) : IsChange key rows others
  | insert (front rest : List Datum) {row : Datum} (h : ¬ HasNumber key row) :
      IsChange key (front ++ rest) (front ++ row :: rest)

theorem IsChange.areIntegers_iff (h : IsChange key rows others) :
    AreIntegers key rows ↔ AreIntegers key others := by
  cases h with
  | reorder h => simp only [AreIntegers, h.mem_iff]
  | @insert front rest row h =>
      have hmem : ∀ x, x ∈ front ++ row :: rest ↔ x = row ∨ x ∈ front ++ rest := by
        simp [or_left_comm]
      constructor
      · intro hints r d hr hd hnumeric
        obtain rfl | hr := (hmem _).mp hr
        · exact absurd ⟨r, d, rfl, hd, hnumeric⟩ h
        · exact hints r d hr hd hnumeric
      · intro hints r d hr hd hnumeric
        exact hints r d ((hmem _).mpr (.inr hr)) hd hnumeric

theorem IsChange.integers_perm (h : IsChange key rows others) :
    (integers key rows).Perm (integers key others) := by
  cases h with
  | reorder h => exact h.filterMap _
  | insert front rest h =>
      simp only [integers, List.filterMap_append, List.filterMap_cons, integerIn?_eq_none h]
      exact .refl _

/-- What one change keeps is kept by changes that are made, and taken back, one after the other. -/
theorem areIntegers_iff_and_perm_of_changes (h : Relation.EqvGen (IsChange key) rows others) :
    (AreIntegers key rows ↔ AreIntegers key others) ∧
      (integers key rows).Perm (integers key others) := by
  induction h with
  | rel rows others h => exact ⟨h.areIntegers_iff, h.integers_perm⟩
  | refl rows => exact ⟨.rfl, .refl _⟩
  | symm rows others _ ih => exact ⟨ih.1.symm, ih.2.symm⟩
  | trans rows middle others _ _ ih ih' => exact ⟨ih.1.trans ih'.1, ih.2.trans ih'.2⟩

/-! ## Integers -/

theorem fromDouble_map_int (is : List Int) : fromDouble (is.map .int) = [] := by
  induction is with
  | nil => rfl
  | cons i is ih => exact ih

theorem leadingSum_map_int (is : List Int) : leadingSum (is.map .int) = is.sum := by
  induction is with
  | nil => rfl
  | cons i is ih => rw [List.map_cons, leadingSum, ih, List.sum_cons]

theorem leastOf_map_int (i : Int) (is : List Int) :
    leastOf (.int i) (is.map .int) = .int (is.foldl min i) := by
  rw [leastOf, List.foldl_map]
  refine List.foldl_hom Number.int fun i j => ?_
  rw [Number.lt_int]
  grind

theorem greatestOf_map_int (i : Int) (is : List Int) :
    greatestOf (.int i) (is.map .int) = .int (is.foldl max i) := by
  rw [greatestOf, List.foldl_map]
  refine List.foldl_hom Number.int fun i j => ?_
  rw [Number.lt_int]
  grind

/-- The statistics of integers, from the list of them. -/
theorem ofNumbers_map_int (is : List Int) :
    ofNumbers (is.map .int) =
      match is.min?, is.max? with
      | some least, some greatest =>
        (meanOf (.int is.sum) is.length).map fun mean =>
          some ⟨.int is.sum, mean, .int least, .int greatest, is.length⟩
      | _, _ => .ok none := by
  cases is with
  | nil => rfl
  | cons i is =>
      have htotal := total_of_fromDouble_eq_nil (fromDouble_map_int (i :: is))
      rw [leadingSum_map_int] at htotal
      rw [List.min?_cons', List.max?_cons', List.map_cons, ofNumbers, ← List.map_cons, htotal]
      simp only [ok_bind, leastOf_map_int, greatestOf_map_int, List.length_map, List.length_cons]
      cases hmean : meanOf (.int (i :: is).sum) (is.length + 1) <;> rfl

/-- So they do not depend on the order. -/
theorem ofNumbers_map_int_perm {is js : List Int} (h : is.Perm js) :
    ofNumbers (is.map .int) = ofNumbers (js.map .int) := by
  have hmin : is.min? = js.min? := Option.ext fun i => by
    simp only [List.min?_eq_some_iff, h.mem_iff]
  have hmax : is.max? = js.max? := Option.ext fun i => by
    simp only [List.max?_eq_some_iff, h.mem_iff]
  rw [ofNumbers_map_int, ofNumbers_map_int, hmin, hmax, h.sum_eq, h.length_eq]

/-- All that can fail is the mean. -/
theorem eq_quotientOutOfRange {is : List Int} {fault : Fault} (h : ofNumbers (is.map .int) = .error fault) :
    fault = .quotientOutOfRange := by
  rw [ofNumbers_map_int] at h
  split at h
  · rw [meanOf] at h
    split at h
    · contradiction
    · exact (Except.error.inj h).symm
  · contradiction

/-- Do statistics describe some integers, with these for the least and the greatest of them? -/
structure Describes (s : Statistics) (is : List Int) (least greatest : Int) : Prop where
  count_eq : s.count = is.length
  sum_eq : s.sum = .int is.sum
  mean_eq : Double.ofIntDiv? is.sum is.length = some s.mean
  least_eq : s.least = .int least
  greatest_eq : s.greatest = .int greatest
  least_mem : least ∈ is
  greatest_mem : greatest ∈ is
  bounds : ∀ i ∈ is, least ≤ i ∧ i ≤ greatest
  mul_least_le : s.count * least ≤ is.sum
  le_mul_greatest : is.sum ≤ s.count * greatest

/-- **Integers.**  The statistics of integers describe them. -/
theorem exists_describes {is : List Int} {s : Statistics} (h : ofNumbers (is.map .int) = .ok (some s)) :
    ∃ least greatest, s.Describes is least greatest := by
  rw [ofNumbers_map_int] at h
  split at h
  · next least greatest hleast hgreatest =>
    obtain ⟨mean, hmean, hs⟩ := map_eq_ok_iff.mp h
    obtain rfl := Option.some.inj hs
    obtain ⟨hleastMem, hleast⟩ := List.min?_eq_some_iff.mp hleast
    obtain ⟨hgreatestMem, hgreatest⟩ := List.max?_eq_some_iff.mp hgreatest
    have hquotient : Double.ofIntDiv? is.sum is.length = some mean := by
      rw [meanOf] at hmean
      split at hmean
      · next x hx => rw [hx, Except.ok.inj hmean]
      · contradiction
    refine ⟨least, greatest, rfl, rfl, hquotient, rfl, rfl, hleastMem, hgreatestMem,
      fun i hi => ⟨hleast i hi, hgreatest i hi⟩, ?_, ?_⟩
    · simpa using List.card_nsmul_le_sum is least hleast
    · simpa using List.sum_le_card_nsmul is greatest hgreatest
  · have hnone := Except.ok.inj h
    contradiction

/-! ## Columns of integers -/

/-- The statistics of a column of integers are those of its integers. -/
theorem AreIntegers.ofRows_eq (h : AreIntegers key rows) (hkey : key.keyFault? = none) :
    ofRows rows key = ofNumbers ((integers key rows).map .int) := by
  rw [ofRows, cells_eq hkey, ok_bind, h.filterMap_numberIn?]

/-- Changes to the rows that keep their numbers keep their statistics, or the fault in place of them. -/
theorem AreIntegers.ofRows_eq_of_changes (h : AreIntegers key rows) (hkey : key.keyFault? = none)
    (hchanges : Relation.EqvGen (IsChange key) rows others) : ofRows others key = ofRows rows key := by
  obtain ⟨hiff, hperm⟩ := areIntegers_iff_and_perm_of_changes hchanges
  rw [h.ofRows_eq hkey, (hiff.mp h).ofRows_eq hkey, ofNumbers_map_int_perm hperm]

end Statistics

end ColumnLabel
