import ColumnLabel.Condition.Holds
import ColumnLabel.Proofs.Condition.Reading
import ColumnLabel.Proofs.Json.Data
import ColumnLabel.Proofs.Number.Reach

/-!
# ColumnLabel.Proofs.Condition.Integer

Whether an integer counts as true, and what its numeral starts with.

Both questions are first put to the double nearest to the integer.  Where there is one the answers are those of the
integer itself; from `Double.reach` on the question fails, and that counts as no (`satisfies_integer_iff`).
-/

namespace ColumnLabel

open Text

/-! ## Truth -/

theorem Number.isTruthy_int {n : Int} (h : n.natAbs < Double.reach) :
    (Number.int n).isTruthy = .ok (decide (n ≠ 0)) := by
  by_cases hn : n = 0
  · subst hn
    rfl
  · obtain ⟨x, hx⟩ := Option.isSome_iff_exists.mp ((Double.isSome_ofInt?_iff n).mpr h)
    have hzero : (Number.int n).isZero = false := by simpa [Number.isZero] using hn
    simp [Number.isTruthy, hzero, hx, hn]

/-- An integer beyond the doubles cannot be asked whether it counts as true. -/
theorem Number.isTruthy_int_of_reach_le {n : Int} (h : Double.reach ≤ n.natAbs) :
    (Number.int n).isTruthy = .error .integerOutOfRange := by
  have hpos : 0 < Double.reach := by decide +kernel
  have hn : n ≠ 0 := by
    rintro rfl
    exact absurd h (Nat.not_le.mpr hpos)
  have hnone : Double.ofInt? n = none := by
    rw [← Option.not_isSome_iff_eq_none, Double.isSome_ofInt?_iff]
    omega
  have hzero : (Number.int n).isZero = false := by simpa [Number.isZero] using hn
  simp [Number.isTruthy, hzero, hnone]

/-- The numeral of an integer that has a nearest double is short enough to be written. -/
theorem isWritable_of_lt_reach {n : Int} (h : n.natAbs < Double.reach) : Numeral.isWritable n = true := by
  have hpow : Double.reach ≤ tenPow 4300 := by decide +kernel
  exact Numeral.isWritable_iff.mpr (Nat.lt_of_lt_of_le h hpow)

namespace Context

variable {context : Context} {name : List Char} {n : Int}

/-- A condition gives an answer without a warning exactly when its check gives that answer. -/
theorem satisfies_eq_iff {condition : String} {b : Bool} (logger : String) :
    context.satisfies logger condition = (b, []) ↔ (Condition.read condition).check context = .ok b := by
  rw [satisfies]
  cases (Condition.read condition).check context with
  | ok b' => simp
  | error fault => simp

theorem check_holds_integer (hget : context.get? (String.ofList name) = some (.number (.int n))) :
    (Condition.holds (String.ofList name)).check context = (Number.int n).isTruthy := by
  rw [Condition.check, hget]
  rfl

theorem check_startsWith_integer (hget : context.get? (String.ofList name) = some (.number (.int n)))
    (hn : n ≠ 0) (h : n.natAbs < Double.reach) (literal : List Char) :
    (Condition.startsWith (String.ofList name) (String.ofList literal)).check context =
      .ok (literal.isPrefixOf (Numeral.ofInt n)) := by
  have htruthy : Value.isTruthy (.number (.int n)) = .ok true := by
    rw [Value.isTruthy, Number.isTruthy_int h, decide_eq_true hn]
  have htext : Value.asText (.number (.int n)) = .ok (.text (String.ofList (Numeral.ofInt n))) := by
    rw [Value.asText, Number.asText, writeInt_of_isWritable (isWritable_of_lt_reach h)]
    rfl
  simp only [Condition.check, hget, Option.getD_some, htruthy, ok_bind, if_true, htext, Condition.hasStart,
    String.toList_ofList]

theorem check_startsWith_integer_of_reach_le
    (hget : context.get? (String.ofList name) = some (.number (.int n)))
    (h : Double.reach ≤ n.natAbs) (literal : List Char) :
    (Condition.startsWith (String.ofList name) (String.ofList literal)).check context =
      .error .integerOutOfRange := by
  simp only [Condition.check, hget, Option.getD_some, Value.isTruthy, Number.isTruthy_int_of_reach_le h,
    error_bind]

/-- **Truth and start of an integer.**  The condition that is the name of an integer holds exactly for the integers
other than zero, and the question for the start of one other than zero is answered by its numeral, exactly when the
integer has a nearest double. -/
theorem satisfies_integer_iff (hget : context.get? (String.ofList name) = some (.number (.int n)))
    (hname : trim name = name) (hne : name ≠ []) (hequals : ¬ "==".toList <:+: name)
    (hstarts : ¬ ".startswith(".toList <:+: name) (hless : '<' ∉ name) (hgreater : '>' ∉ name)
    (logger : String) :
    (context.satisfies logger (String.ofList name) = (decide (n ≠ 0), []) ↔ n.natAbs < Double.reach) ∧
      (n ≠ 0 → ∀ quote, Condition.isQuote quote = true → ∀ literal,
        (context.satisfies logger (String.ofList (Condition.startText name quote literal)) =
          (literal.isPrefixOf (Numeral.ofInt n), []) ↔ n.natAbs < Double.reach)) := by
  constructor
  · rw [satisfies_eq_iff, Condition.read_holds hname hequals hstarts hless hgreater,
      check_holds_integer hget]
    constructor
    · intro h
      by_contra hreach
      rw [Number.isTruthy_int_of_reach_le (Nat.le_of_not_lt hreach)] at h
      contradiction
    · exact Number.isTruthy_int
  · intro hn quote hquote literal
    rw [satisfies_eq_iff, Condition.read_startsWith hname hne hstarts hquote]
    constructor
    · intro h
      by_contra hreach
      rw [check_startsWith_integer_of_reach_le hget (Nat.le_of_not_lt hreach)] at h
      contradiction
    · intro h
      exact check_startsWith_integer hget hn h literal

/-- The largest power of ten among the doubles is asked for its truth and its first digits. -/
theorem satisfies_integer_iff_power :
    (empty.set "x" (.number (.int (tenPow 308)))).satisfies Logger.conditions "x" = (true, []) ∧
      (empty.set "x" (.number (.int (tenPow 308)))).satisfies Logger.conditions "x.startswith('10')" =
        (true, []) := by
  have hreach : (tenPow 308 : Int).natAbs < Double.reach := by decide +kernel
  have hn : (tenPow 308 : Int) ≠ 0 := by decide +kernel
  have hget : (empty.set "x" (.number (.int (tenPow 308)))).get? (String.ofList ['x']) =
      some (.number (.int (tenPow 308))) := by
    rw [get?_set]
    exact if_pos (by decide)
  obtain ⟨hholds, hstarts⟩ := satisfies_integer_iff hget (by decide) (by decide) (by decide) (by decide)
    (by decide) (by decide) Logger.conditions
  have hholds := hholds.mpr hreach
  have hstarts := (hstarts hn '\'' (by decide) ['1', '0']).mpr hreach
  have hnumeral : ['1', '0'].isPrefixOf (Numeral.ofInt (tenPow 308)) = true := by decide +kernel
  rw [decide_eq_true hn] at hholds
  rw [hnumeral] at hstarts
  exact ⟨hholds, hstarts⟩

/-- The next power of ten is not zero and starts with a one, but it is beyond the doubles. -/
theorem satisfies_integer_beyond_doubles :
    (empty.set "x" (.number (.int (tenPow 309)))).satisfies Logger.conditions "x" =
        (false, [⟨.warning, Logger.conditions,
          "Error evaluating condition 'x': int too large to convert to float"⟩]) ∧
      (empty.set "x" (.number (.int (tenPow 309)))).satisfies Logger.conditions "x.startswith('1')" =
        (false, [⟨.warning, Logger.conditions,
          "Error evaluating condition 'x.startswith('1')': int too large to convert to float"⟩]) ∧
      (tenPow 309 : Int) ≠ 0 ∧ ['1'].isPrefixOf (Numeral.ofInt (tenPow 309)) = true := by
  decide +kernel

end Context

end ColumnLabel
