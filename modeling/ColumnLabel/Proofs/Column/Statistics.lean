import ColumnLabel.Column.Statistics
import ColumnLabel.Proofs.Number.Reach
import ColumnLabel.Proofs.Steps

/-!
# ColumnLabel.Proofs.Column.Statistics

The columns that have statistics.

Integers are added without bounds, but a sum becomes a double with the first double that is added to it, an
integer does when it is added to a double, and so does the mean of integers.  What is `Double.reach` or more
cannot.  The main statement is that numbers have statistics exactly when nothing of the kind is asked of them
(`exists_ofNumbers_eq_ok_iff`).  Where statistics are found, they say that there is a number in some row
(`isSome_iff_of_ofRows`).
-/

namespace ColumnLabel

/-- Has a number a double that is nearest to it? -/
def Number.HasDouble : Number → Prop
  | .int i => i.natAbs < Double.reach
  | .double _ => True

instance : DecidablePred Number.HasDouble
  | .int i => inferInstanceAs (Decidable (i.natAbs < Double.reach))
  | .double _ => inferInstanceAs (Decidable True)

/-- Is a datum a number that counts for statistics? -/
def Datum.IsNumeric : Datum → Prop
  | .int _ => True
  | .double x => x.isNaN = false
  | .decimal d => d.isNaN = false
  | _ => False

namespace Statistics

/-! ## The numbers of a column -/

/-- The number in the cell that a row has under a key, if it counts for statistics. -/
def numberIn? (key : Datum) : Datum → Option Number
  | .record r => (r.get? key).bind numeric?
  | _ => none

/-- Has a row a numeric cell under a key? -/
def HasNumber (key row : Datum) : Prop := ∃ r d, row = .record r ∧ r.get? key = some d ∧ d.IsNumeric

theorem isSome_numeric?_iff {d : Datum} : (numeric? d).isSome = true ↔ d.IsNumeric := by
  cases d <;> simp [numeric?, Datum.IsNumeric]

theorem isSome_numberIn?_iff {key row : Datum} : (numberIn? key row).isSome = true ↔ HasNumber key row := by
  cases row <;> simp [numberIn?, HasNumber, Option.isSome_bind, Option.any_eq_true, isSome_numeric?_iff]

/-- The numeric cells under a key that can be looked up. -/
theorem cells_eq {key : Datum} (hkey : key.keyFault? = none) (rows : List Datum) :
    cells key rows = .ok (rows.filterMap (numberIn? key)) := by
  induction rows with
  | nil => rfl
  | cons row rows ih =>
      cases row with
      | record r =>
          simp only [cells, hkey, ih, List.filterMap_cons, numberIn?]
          cases (r.get? key).bind numeric? <;> rfl
      | _ => exact ih

/-- And under any other one, as far as rows can be gone through with it. -/
theorem eq_filterMap_of_cells {key : Datum} {rows : List Datum} {ns : List Number}
    (h : cells key rows = .ok ns) : ns = rows.filterMap (numberIn? key) := by
  cases hkey : key.keyFault? with
  | none =>
      rw [cells_eq hkey] at h
      exact (Except.ok.inj h).symm
  | some fault =>
      -- a row that is a record is a fault, and any other one has no number
      induction rows with
      | nil => exact (Except.ok.inj h).symm
      | cons row rows ih =>
          cases row with
          | record r =>
              rw [cells, hkey] at h
              contradiction
          | _ => exact ih h

/-! ## Integers and doubles -/

/-- The sum of the integers in front of the first double. -/
def leadingSum : List Number → Int
  | .int i :: ns => i + leadingSum ns
  | _ => 0

/-- The numbers from the first double on. -/
def fromDouble : List Number → List Number
  | .int _ :: ns => fromDouble ns
  | ns => ns

theorem fromDouble_eq (ns : List Number) :
    fromDouble ns = [] ∨ ∃ x rest, fromDouble ns = .double x :: rest := by
  induction ns with
  | nil => exact Or.inl rfl
  | cons n ns ih =>
      cases n with
      | int i => exact ih
      | double x => exact Or.inr ⟨x, ns, rfl⟩

/-- Do numbers have statistics?  The mean of integers alone has to be in reach of the doubles; where there
is a double, the sum of the integers in front of it has to be, and each integer after it. -/
def IsInReach (ns : List Number) : Prop :=
  if fromDouble ns = [] then ns ≠ [] → (leadingSum ns).natAbs < Double.reach * ns.length
  else (leadingSum ns).natAbs < Double.reach ∧ ∀ n ∈ fromDouble ns, n.HasDouble

instance (ns : List Number) : Decidable (IsInReach ns) :=
  inferInstanceAs (Decidable (if fromDouble ns = [] then _ else _))

/-! ## The sum -/

theorem exists_toDouble_eq_ok_iff (i : Int) :
    (∃ x, toDouble i = .ok x) ↔ i.natAbs < Double.reach := by
  rw [← Double.isSome_ofInt?_iff, toDouble]
  cases Double.ofInt? i <;> simp

/-- What comes out of adding to a double is a double. -/
theorem eq_double_of_add {x : Double} {n s : Number} (h : add (.double x) n = .ok s) :
    ∃ y, s = .double y := by
  cases n with
  | int i =>
      simp only [add, bind_eq_ok_iff, pure_eq_ok_iff] at h
      obtain ⟨z, _, rfl⟩ := h
      exact ⟨_, rfl⟩
  | double z => exact ⟨_, (Except.ok.inj h).symm⟩

/-- A number can be added to a double when it has a double itself. -/
theorem exists_add_double_iff (x : Double) (n : Number) :
    (∃ s, add (.double x) n = .ok s) ↔ n.HasDouble := by
  cases n with
  | int i =>
      rw [Number.HasDouble, ← exists_toDouble_eq_ok_iff]
      simp only [add, bind_eq_ok_iff, pure_eq_ok_iff]
      constructor
      · intro hsum
        obtain ⟨_, z, hz, _⟩ := hsum
        exact ⟨z, hz⟩
      · intro hdouble
        obtain ⟨z, hz⟩ := hdouble
        exact ⟨_, z, hz, rfl⟩
  | double y => simp [add, Number.HasDouble]

theorem eq_double_of_foldlM_add {x : Double} {ns : List Number} {s : Number}
    (h : ns.foldlM add (.double x) = .ok s) : ∃ y, s = .double y := by
  induction ns generalizing x with
  | nil => exact ⟨x, (pure_eq_ok_iff.mp h).symm⟩
  | cons n ns ih =>
      rw [List.foldlM_cons, bind_eq_ok_iff] at h
      obtain ⟨t, ht, h⟩ := h
      obtain ⟨y, rfl⟩ := eq_double_of_add ht
      exact ih h

/-- From a double on, numbers can be added when each of them has a double. -/
theorem exists_foldlM_add_double_iff (x : Double) (ns : List Number) :
    (∃ s, ns.foldlM add (.double x) = .ok s) ↔ ∀ n ∈ ns, n.HasDouble := by
  induction ns generalizing x with
  | nil => simp [pure_eq_ok_iff]
  | cons n ns ih =>
      rw [List.forall_mem_cons, ← exists_add_double_iff x]
      simp only [List.foldlM_cons, bind_eq_ok_iff]
      constructor
      · intro hsum
        obtain ⟨s, t, ht, hs⟩ := hsum
        obtain ⟨y, rfl⟩ := eq_double_of_add ht
        exact ⟨⟨_, ht⟩, (ih y).mp ⟨s, hs⟩⟩
      · intro hnumbers
        obtain ⟨⟨t, ht⟩, hns⟩ := hnumbers
        obtain ⟨y, rfl⟩ := eq_double_of_add ht
        obtain ⟨s, hs⟩ := (ih y).mpr hns
        exact ⟨s, _, ht, hs⟩

/-- Integers are added without bounds, up to the first double. -/
theorem foldlM_add_int (s : Int) (ns : List Number) :
    ns.foldlM add (.int s) = (fromDouble ns).foldlM add (.int (s + leadingSum ns)) := by
  induction ns generalizing s with
  | nil => simp [fromDouble, leadingSum]
  | cons n ns ih =>
      cases n with
      | int i =>
          rw [List.foldlM_cons]
          show ns.foldlM add (.int (s + i)) = _
          rw [ih, fromDouble, leadingSum, Int.add_assoc]
      | double x => simp [fromDouble, leadingSum]

/-- The sum of integers is their exact sum. -/
theorem total_of_fromDouble_eq_nil {ns : List Number} (h : fromDouble ns = []) :
    total ns = .ok (.int (leadingSum ns)) := by
  rw [total, foldlM_add_int, h, Int.zero_add]
  rfl

/-- The sum of numbers with a double among them is a double, if every integer has one that needs it. -/
theorem exists_total_eq_ok_iff {ns : List Number} (h : fromDouble ns ≠ []) :
    (∃ x, total ns = .ok (.double x)) ↔
      (leadingSum ns).natAbs < Double.reach ∧ ∀ n ∈ fromDouble ns, n.HasDouble := by
  obtain hnil | ⟨x, rest, hrest⟩ := fromDouble_eq ns
  · exact absurd hnil h
  have htotal : total ns =
      toDouble (leadingSum ns) >>= fun y => rest.foldlM add (.double (y.add x)) := by
    rw [total, foldlM_add_int, hrest, Int.zero_add, List.foldlM_cons, add]
    cases toDouble (leadingSum ns) <;> rfl
  rw [htotal, hrest, List.forall_mem_cons, ← exists_toDouble_eq_ok_iff]
  simp only [bind_eq_ok_iff]
  constructor
  · intro hsum
    obtain ⟨s, y, hy, hs⟩ := hsum
    exact ⟨⟨y, hy⟩, trivial, (exists_foldlM_add_double_iff (y.add x) rest).mp ⟨_, hs⟩⟩
  · intro hnumbers
    obtain ⟨⟨y, hy⟩, _, hns⟩ := hnumbers
    obtain ⟨s, hs⟩ := (exists_foldlM_add_double_iff (y.add x) rest).mpr hns
    obtain ⟨z, rfl⟩ := eq_double_of_foldlM_add hs
    exact ⟨z, y, hy, hs⟩

/-- A sum that has a double among its numbers is a double. -/
theorem eq_double_of_total {ns : List Number} {s : Number} (h : fromDouble ns ≠ [])
    (hs : total ns = .ok s) : ∃ x, s = .double x := by
  obtain hnil | ⟨x, rest, hrest⟩ := fromDouble_eq ns
  · exact absurd hnil h
  rw [total, foldlM_add_int, hrest, List.foldlM_cons, bind_eq_ok_iff] at hs
  obtain ⟨t, ht, hs⟩ := hs
  simp only [add, bind_eq_ok_iff, pure_eq_ok_iff] at ht
  obtain ⟨y, _, rfl⟩ := ht
  exact eq_double_of_foldlM_add hs

/-! ## Extremes -/

/-- Of numbers among which one is picked after the other, one is picked in the end. -/
theorem foldl_pick_mem (better : Number → Number → Bool) (n : Number) (ns : List Number) :
    ns.foldl (fun best n => if better best n then n else best) n ∈ n :: ns := by
  induction ns generalizing n with
  | nil => exact List.mem_cons_self
  | cons m ns ih =>
      rw [List.foldl_cons]
      split
      · exact List.mem_cons_of_mem n (ih m)
      · obtain h | h := List.mem_cons.mp (ih n)
        · rw [h]
          exact List.mem_cons_self
        · exact List.mem_cons_of_mem n (List.mem_cons_of_mem m h)

theorem leastOf_mem (n : Number) (ns : List Number) : leastOf n ns ∈ n :: ns :=
  foldl_pick_mem (fun best n => n.lt best) n ns

theorem greatestOf_mem (n : Number) (ns : List Number) : greatestOf n ns ∈ n :: ns :=
  foldl_pick_mem (fun best n => best.lt n) n ns

/-! ## Statistics -/

theorem exists_meanOf_int_iff (i : Int) {count : Nat} (hcount : 0 < count) :
    (∃ m, meanOf (.int i) count = .ok m) ↔ i.natAbs < Double.reach * count := by
  rw [← Double.isSome_ofIntDiv?_iff i hcount, meanOf]
  cases Double.ofIntDiv? i count <;> simp

/-- Numbers have statistics when they have a sum and a mean. -/
theorem ofNumbers_eq_ok_some_iff {n : Number} {ns : List Number} {s : Statistics} :
    ofNumbers (n :: ns) = .ok (some s) ↔
      total (n :: ns) = .ok s.sum ∧ meanOf s.sum (ns.length + 1) = .ok s.mean ∧
        s.least = leastOf n ns ∧ s.greatest = greatestOf n ns ∧ s.count = ns.length + 1 := by
  obtain ⟨sum, mean, least, greatest, count⟩ := s
  simp only [ofNumbers, bind_eq_ok_iff, pure_eq_ok_iff, Option.some.injEq, mk.injEq]
  constructor
  · intro hsteps
    obtain ⟨_, hsum, _, hmean, rfl, rfl, rfl, rfl, rfl⟩ := hsteps
    exact ⟨hsum, hmean, rfl, rfl, rfl⟩
  · intro hparts
    obtain ⟨hsum, hmean, rfl, rfl, rfl⟩ := hparts
    exact ⟨_, hsum, _, hmean, rfl, rfl, rfl, rfl, rfl⟩

/-- Numbers without statistics are none. -/
theorem ofNumbers_eq_ok_none_iff {ns : List Number} : ofNumbers ns = .ok none ↔ ns = [] := by
  constructor
  · intro h
    cases ns with
    | nil => rfl
    | cons n ns =>
        simp only [ofNumbers, bind_eq_ok_iff, pure_eq_ok_iff] at h
        obtain ⟨_, _, _, _, h⟩ := h
        contradiction
  · rintro rfl
    rfl

/-- The statistics of numbers are their sum, two of them, and how many they are. -/
theorem eq_of_ofNumbers_eq_ok_some {ns : List Number} {s : Statistics} (h : ofNumbers ns = .ok (some s)) :
    total ns = .ok s.sum ∧ s.least ∈ ns ∧ s.greatest ∈ ns ∧ s.count = ns.length := by
  cases ns with
  | nil =>
      have hnone := Except.ok.inj h
      contradiction
  | cons n ns =>
      obtain ⟨hsum, _, hleast, hgreatest, hcount⟩ := ofNumbers_eq_ok_some_iff.mp h
      refine ⟨hsum, ?_, ?_, hcount⟩
      · rw [hleast]
        exact leastOf_mem n ns
      · rw [hgreatest]
        exact greatestOf_mem n ns

/-- **Statistics.**  Numbers have statistics exactly when they are in reach. -/
theorem exists_ofNumbers_eq_ok_iff (ns : List Number) :
    (∃ s, ofNumbers ns = .ok s) ↔ IsInReach ns := by
  cases ns with
  | nil => simp [ofNumbers, IsInReach, fromDouble]
  | cons n ns =>
      have hsteps : (∃ s, ofNumbers (n :: ns) = .ok s) ↔
          ∃ sum, total (n :: ns) = .ok sum ∧ ∃ m, meanOf sum (ns.length + 1) = .ok m := by
        simp only [ofNumbers, bind_eq_ok_iff, pure_eq_ok_iff]
        constructor
        · intro hstatistics
          obtain ⟨_, sum, hsum, m, hm, _⟩ := hstatistics
          exact ⟨sum, hsum, m, hm⟩
        · intro hsteps
          obtain ⟨sum, hsum, m, hm⟩ := hsteps
          exact ⟨_, sum, hsum, m, hm, rfl⟩
      rw [hsteps, IsInReach]
      split
      · next h =>
        rw [total_of_fromDouble_eq_nil h]
        have hmean := exists_meanOf_int_iff (leadingSum (n :: ns)) (Nat.succ_pos ns.length)
        simpa using hmean
      · next h =>
        rw [← exists_total_eq_ok_iff h]
        constructor
        · intro hsteps
          obtain ⟨s, hs, _⟩ := hsteps
          obtain ⟨x, rfl⟩ := eq_double_of_total h hs
          exact ⟨x, hs⟩
        · intro hdouble
          obtain ⟨x, hx⟩ := hdouble
          exact ⟨.double x, hx, _, rfl⟩

/-! ## Rows -/

section

variable {key : Datum} {rows : List Datum}

/-- The statistics that are found in rows are those of their numbers. -/
theorem ofNumbers_of_ofRows {s : Option Statistics} (h : ofRows rows key = .ok s) :
    ofNumbers (rows.filterMap (numberIn? key)) = .ok s := by
  rw [ofRows, bind_eq_ok_iff] at h
  obtain ⟨ns, hns, h⟩ := h
  rwa [← eq_filterMap_of_cells hns]

/-- There are statistics where a row has a number. -/
theorem isSome_iff_of_ofRows {s : Option Statistics} (h : ofRows rows key = .ok s) :
    s.isSome = true ↔ ∃ row ∈ rows, HasNumber key row := by
  have hnone : s = none ↔ rows.filterMap (numberIn? key) = [] := by
    rw [← ofNumbers_eq_ok_none_iff, ofNumbers_of_ofRows h, Except.ok.injEq]
  simp only [← isSome_numberIn?_iff]
  rw [Option.isSome_iff_ne_none, ne_eq, hnone, List.filterMap_eq_nil_iff]
  simp [Option.isSome_iff_ne_none]

/-- They count no more numbers than there are rows. -/
theorem count_le_of_ofRows {s : Statistics} (h : ofRows rows key = .ok (some s)) : s.count ≤ rows.length := by
  obtain ⟨_, _, _, hcount⟩ := eq_of_ofNumbers_eq_ok_some (ofNumbers_of_ofRows h)
  rw [hcount]
  exact List.length_filterMap_le _ _

end

end Statistics

end ColumnLabel
