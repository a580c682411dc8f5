import ColumnLabel.Proofs.Column.Statistics
import ColumnLabel.Proofs.Context.Shown
import ColumnLabel.Variable.BuiltIn

/-!
# ColumnLabel.Proofs.Variable.Shown

The built-in variables of a column whose descriptor and rows come from JSON.  As long as no row is nested too deep,
all that can go wrong with what they say is that an integer has too many digits.  No single cell has that many, so it
takes a sum, or a count of rows or metrics (`forall_shows_builtIn_iff`).
-/

namespace ColumnLabel

/-! ## Facts from JSON -/

namespace ColumnFacts

/-- The numeric cells of the column. -/
def numbers (facts : ColumnFacts) : List Number :=
  facts.rows.filterMap (Statistics.numberIn? facts.column.key)

/-- The facts about a column with texts for a label and a key come from JSON. -/
structure IsJson (facts : ColumnFacts) : Prop where
  label : ∃ s, facts.column.label = .text s
  key : ∃ s, facts.column.key = .text s
  dataType : facts.column.dataType = .none ∨ ∃ s, facts.column.dataType = .text s
  rows : ∀ row ∈ facts.rows, row.IsJson
  statistics : Statistics.ofNumbers facts.numbers = .ok facts.statistics

/-- Every integer that is not taken from a cell may be written out. -/
structure AreWritable (facts : ColumnFacts) : Prop where
  sum : Statistics.fromDouble facts.numbers = [] →
    Numeral.isWritable (Statistics.leadingSum facts.numbers) = true
  rowCount : Numeral.isWritable facts.rows.length = true
  metricCount : facts.includeMetrics = true → Numeral.isWritable facts.metrics.length = true

end ColumnFacts

namespace Statistics

theorem isShown_of_numeric? {d : Datum} {n : Number} (hd : d.IsJson) (h : numeric? d = some n) :
    (Value.number n).IsShown := by
  cases hd with
  | int hi =>
      obtain rfl := Option.some.inj h
      exact Value.isShown_int_iff.mpr hi
  | double x =>
      simp only [numeric?] at h
      split at h
      · contradiction
      · obtain rfl := Option.some.inj h
        exact Value.isShown_double x
  | _ => simp [numeric?] at h

theorem isShown_of_numberIn? {key row : Datum} {n : Number} (hrow : row.IsJson)
    (h : numberIn? key row = some n) : (Value.number n).IsShown := by
  cases hrow with
  | record hkeys hvalues =>
      obtain ⟨d, hd, hn⟩ := Option.bind_eq_some_iff.mp h
      exact isShown_of_numeric? (Record.isJson_of_get? (.record hkeys hvalues) hd) hn
  | _ => simp [numberIn?] at h

end Statistics

namespace ColumnFacts

variable {facts : ColumnFacts}

theorem IsJson.isShown_of_mem_numbers (h : facts.IsJson) {n : Number} (hn : n ∈ facts.numbers) :
    (Value.number n).IsShown := by
  obtain ⟨row, hrow, hn⟩ := List.mem_filterMap.mp hn
  exact Statistics.isShown_of_numberIn? (h.rows row hrow) hn

/-- The statistics of a column with numeric cells are the statistics of these. -/
theorem IsJson.statistics_eq_some (h : facts.IsJson) {s : Statistics}
    (hs : facts.statistics = some s) :
    Statistics.total facts.numbers = .ok s.sum ∧ s.least ∈ facts.numbers ∧
      s.greatest ∈ facts.numbers ∧ s.count = facts.numbers.length := by
  have hnumbers := h.statistics
  rw [hs] at hnumbers
  exact Statistics.eq_of_ofNumbers_eq_ok_some hnumbers

/-- The sum can be shown unless it is an integer with too many digits. -/
theorem IsJson.isShown_sum_iff (h : facts.IsJson) :
    (∀ s, facts.statistics = some s → (Value.number s.sum).IsShown) ↔
      (Statistics.fromDouble facts.numbers = [] →
        Numeral.isWritable (Statistics.leadingSum facts.numbers) = true) := by
  constructor
  · intro hshown hints
    by_cases hns : facts.numbers = []
    · rw [hns]
      exact Numeral.isWritable_iff.mpr (tenPow_pos _)
    · obtain hnone | ⟨s, hs⟩ := Option.eq_none_or_eq_some facts.statistics
      · exact absurd (Statistics.ofNumbers_eq_ok_none_iff.mp (hnone ▸ h.statistics)) hns
      · have hsum := (h.statistics_eq_some hs).1
        rw [Statistics.total_of_fromDouble_eq_nil hints] at hsum
        have hshow := hshown s hs
        rw [← Except.ok.inj hsum] at hshow
        exact Value.isShown_int_iff.mp hshow
  · intro hwritable s hs
    have hsum := (h.statistics_eq_some hs).1
    by_cases hints : Statistics.fromDouble facts.numbers = []
    · rw [Statistics.total_of_fromDouble_eq_nil hints] at hsum
      rw [← Except.ok.inj hsum]
      exact Value.isShown_int_iff.mpr (hwritable hints)
    · obtain ⟨x, hx⟩ := Statistics.eq_double_of_total hints hsum
      rw [hx]
      exact Value.isShown_double x

/-- There are no more numeric cells than rows. -/
theorem IsJson.isShown_count (h : facts.IsJson) {s : Statistics} (hs : facts.statistics = some s)
    (hrows : Numeral.isWritable facts.rows.length = true) :
    (Value.number (.int s.count)).IsShown := by
  obtain ⟨_, _, _, hcount⟩ := h.statistics_eq_some hs
  have hle : facts.numbers.length ≤ facts.rows.length := List.length_filterMap_le _ _
  rw [Numeral.isWritable_iff, Int.natAbs_natCast] at hrows
  rw [Value.isShown_int_iff, Numeral.isWritable_iff, Int.natAbs_natCast, hcount]
  exact Nat.lt_of_le_of_lt hle hrows

/-- The record in a row, or the empty one. -/
theorem fitsJson_recordOf {row : Option Datum} (h : ∀ d, row = some d → d.FitsJson maxDepth) :
    (Datum.record (recordOf row)).FitsJson maxDepth := by
  have hempty : (Datum.record (.entries [])).FitsJson maxDepth := ⟨.record (by simp) (by simp), by decide⟩
  cases row with
  | none => exact hempty
  | some d =>
      cases d with
      | record r => exact h _ rfl
      | _ => exact hempty

/-- The value of the column in a row is a wrapped cell, or wrapped nothing; the cell is nested no deeper than the row.
-/
theorem IsJson.exists_ofDatum_eq_valueIn (h : facts.IsJson) {row : Option Datum} {v : Value}
    (hrow : ∀ d, row = some d → d.IsJson) (hv : facts.valueIn row = .ok v) :
    ∃ d, d.IsJson ∧ Value.ofDatum d = .ok v ∧
      ∀ room, (∀ r, row = some r → r.depth ≤ room) → d.depth ≤ room := by
  have hnone : (Datum.none).depth = 0 := by simp [Datum.depth]
  cases row with
  | none => exact ⟨.none, .none, hv, fun room _ => hnone ▸ Nat.zero_le room⟩
  | some d =>
      rw [valueIn, bind_eq_ok_iff] at hv
      obtain ⟨c, hc, hv⟩ := hv
      cases d with
      | record r =>
          obtain ⟨key, hkey⟩ := h.key
          simp only [cell, hkey, Datum.keyFault?] at hc
          obtain rfl := Except.ok.inj hc
          cases hget : r.get? (.text key) with
          | none =>
              rw [hget] at hv
              exact ⟨.none, .none, hv, fun room _ => hnone ▸ Nat.zero_le room⟩
          | some c =>
              rw [hget] at hv
              have hr := hrow _ rfl
              exact ⟨c, Record.isJson_of_get? hr hget, hv, fun room hroom =>
                Nat.le_trans (Nat.le_of_lt (Record.depth_lt_of_get? hr hget)) (hroom _ rfl)⟩
      | _ =>
          obtain rfl := Except.ok.inj hc
          exact ⟨.none, .none, hv, fun room _ => hnone ▸ Nat.zero_le room⟩

/-- So it can be shown if the row is not nested too deep. -/
theorem IsJson.isShown_valueIn (h : facts.IsJson) {row : Option Datum} {v : Value}
    (hrow : ∀ d, row = some d → d.FitsJson maxDepth) (hv : facts.valueIn row = .ok v) : v.IsShown := by
  obtain ⟨d, hd, hdv, hdepth⟩ := h.exists_ofDatum_eq_valueIn (fun d hd => (hrow d hd).1) hv
  obtain ⟨w, hw, hshown⟩ := Value.exists_ofDatum_eq_ok hd
  obtain rfl : w = v := Except.ok.inj (hw.symm.trans hdv)
  exact hshown (hdepth maxDepth fun r hr => (hrow r hr).2)

end ColumnFacts

/-! ## Variables -/

namespace Variable

/-- What a variable says about a column is always a value. -/
def IsWrapping (v : Variable) : Prop :=
  ∀ facts d, v.extract facts = .ok (some d) → ∃ w, d = .value w

/-- What a variable says about a column, if it says something, can be shown. -/
def Shows (v : Variable) (facts : ColumnFacts) : Prop :=
  ∀ w, v.extract facts = .ok (some (.value w)) → w.IsShown

section

variable {name description : String} {category : Category} {facts : ColumnFacts}

theorem isWrapping_total {value : ColumnFacts → Except Fault Value} :
    (total name category description value).IsWrapping := by
  intro facts d h
  simp only [total, bind_eq_ok_iff, pure_eq_ok_iff] at h
  obtain ⟨w, _, h⟩ := h
  exact ⟨w, (Option.some.inj h).symm⟩

theorem isWrapping_optional {value? : ColumnFacts → Option Value} :
    (optional name category description value?).IsWrapping := by
  intro facts d h
  obtain ⟨w, _, h⟩ := Option.map_eq_some_iff.mp (Except.ok.inj h)
  exact ⟨w, h.symm⟩

/-- What holds of the values that a variable says, for a variable whose value is always there. -/
theorem forall_extract_total_iff {P : Value → Prop} {value : ColumnFacts → Except Fault Value} :
    (∀ w, (total name category description value).extract facts = .ok (some (.value w)) → P w) ↔
      ∀ w, value facts = .ok w → P w := by
  simp only [total, bind_eq_ok_iff, pure_eq_ok_iff, Option.some.injEq, Datum.value.injEq, exists_eq_right]

/-- And for one whose value may not be there. -/
theorem forall_extract_optional_iff {P : Value → Prop} {value? : ColumnFacts → Option Value} :
    (∀ w, (optional name category description value?).extract facts = .ok (some (.value w)) → P w) ↔
      ∀ w, value? facts = some w → P w := by
  simp [optional]

theorem shows_total_iff {value : ColumnFacts → Except Fault Value} :
    (total name category description value).Shows facts ↔ ∀ w, value facts = .ok w → w.IsShown :=
  forall_extract_total_iff

theorem shows_optional_iff {value? : ColumnFacts → Option Value} :
    (optional name category description value?).Shows facts ↔ ∀ w, value? facts = some w → w.IsShown :=
  forall_extract_optional_iff

end

theorem isWrapping_of_mem_builtIn {v : Variable} (hv : v ∈ builtIn) : v.IsWrapping := by
  simp only [builtIn, identity, rows, statistics, metrics, List.cons_append, List.nil_append,
    List.mem_cons, List.not_mem_nil, or_false] at hv
  rcases hv with rfl | rfl | rfl | rfl | rfl | rfl | rfl | rfl | rfl | rfl | rfl | rfl | hv
  iterate 12 exact isWrapping_total
  rcases hv with rfl | rfl | rfl | rfl | rfl | rfl | rfl
  iterate 7 exact isWrapping_optional

/-! ## Groups of variables -/

variable {facts : ColumnFacts}

theorem forall_shows_identity (h : facts.IsJson) : ∀ v ∈ identity, v.Shows facts := by
  obtain ⟨label, hlabel⟩ := h.label
  obtain ⟨key, hkey⟩ := h.key
  simp only [identity, List.forall_mem_cons, shows_total_iff, List.not_mem_nil, false_implies,
    implies_true, and_true, Except.ok.injEq, forall_eq', hlabel, hkey, textField]
  refine ⟨?_, Value.isShown_text _, Value.isShown_text _, ?_, Value.isShown_bool _,
    Value.isShown_bool _, Value.isShown_bool _⟩
  · intro w hw
    rw [nameOfLabel, bind_eq_ok_iff] at hw
    obtain ⟨name, _, hw⟩ := hw
    obtain rfl := pure_eq_ok_iff.mp hw
    exact Value.isShown_text name
  · intro w hw
    obtain hnone | ⟨s, hs⟩ := h.dataType
    · rw [hnone] at hw
      obtain rfl := Except.ok.inj hw
      exact Value.isShown_absent
    · rw [hs] at hw
      obtain rfl := Except.ok.inj hw
      exact Value.isShown_text s

theorem forall_shows_rows_iff (h : facts.IsJson) (hdepth : ∀ row ∈ facts.rows, row.depth ≤ maxDepth) :
    (∀ v ∈ rows, v.Shows facts) ↔ Numeral.isWritable facts.rows.length = true := by
  have hrows : ∀ d ∈ facts.rows, d.FitsJson maxDepth := fun d hd => ⟨h.rows d hd, hdepth d hd⟩
  have hfirst : ∀ d, facts.rows.head? = some d → d.FitsJson maxDepth :=
    fun d hd => hrows d (List.mem_of_head? hd)
  have hlast : ∀ d, facts.rows.getLast? = some d → d.FitsJson maxDepth :=
    fun d hd => hrows d (List.mem_of_getLast? hd)
  simp only [rows, List.forall_mem_cons, shows_total_iff, List.not_mem_nil, false_implies,
    implies_true, and_true, Except.ok.injEq, forall_eq', Value.isShown_int_iff]
  constructor
  · intro hshown
    exact hshown.1
  · intro hwritable
    have hfirstRecord := ColumnFacts.fitsJson_recordOf hfirst
    have hlastRecord := ColumnFacts.fitsJson_recordOf hlast
    exact ⟨hwritable, (Value.isShown_record_iff hfirstRecord.1).mpr hfirstRecord.2,
      (Value.isShown_record_iff hlastRecord.1).mpr hlastRecord.2, fun w => h.isShown_valueIn hfirst,
      fun w => h.isShown_valueIn hlast⟩

theorem forall_shows_statistics_iff (h : facts.IsJson)
    (hrows : Numeral.isWritable facts.rows.length = true) :
    (∀ v ∈ statistics, v.Shows facts) ↔ (Statistics.fromDouble facts.numbers = [] →
      Numeral.isWritable (Statistics.leadingSum facts.numbers) = true) := by
  rw [← h.isShown_sum_iff]
  simp only [statistics, List.forall_mem_cons, shows_optional_iff, List.not_mem_nil, false_implies,
    implies_true, and_true, Option.map_eq_some_iff, forall_exists_index, and_imp,
    forall_apply_eq_imp_iff₂]
  constructor
  · intro hshown
    exact hshown.1
  · intro hsum
    refine ⟨hsum, fun s _ => Value.isShown_double s.mean, fun s hs => ?_, fun s hs => ?_,
      fun s hs => h.isShown_count hs hrows⟩
    · exact h.isShown_of_mem_numbers (h.statistics_eq_some hs).2.1
    · exact h.isShown_of_mem_numbers (h.statistics_eq_some hs).2.2.1

theorem forall_shows_metrics_iff :
    (∀ v ∈ metrics, v.Shows facts) ↔
      (facts.includeMetrics = true → Numeral.isWritable facts.metrics.length = true) := by
  simp only [metrics, List.forall_mem_cons, shows_optional_iff, List.not_mem_nil, false_implies,
    implies_true, and_true]
  by_cases hinclude : facts.includeMetrics = true
  · simp only [hinclude, if_true, Option.some.injEq, forall_eq', Value.isShown_int_iff, true_implies]
    have hnames : ∀ d ∈ facts.metrics.map Datum.text, d.FitsJson 0 := by
      intro d hd
      obtain ⟨m, _, rfl⟩ := List.mem_map.mp hd
      exact ⟨.text m, Nat.le_of_eq (Datum.depth_text m)⟩
    have hlist := Datum.fitsJson_list hnames
    exact and_iff_right ((Value.isShown_list_iff fun d hd => (hnames d hd).1).mpr
      (Nat.le_trans hlist.2 (by decide)))
  · simp [hinclude]

/-- **Variables.**  If no row is nested too deep, what the built-in variables say about a column can be shown exactly
when every integer can be written out that was not taken from a cell. -/
theorem forall_shows_builtIn_iff (h : facts.IsJson) (hdepth : ∀ row ∈ facts.rows, row.depth ≤ maxDepth) :
    (∀ v ∈ builtIn, v.Shows facts) ↔ facts.AreWritable := by
  simp only [builtIn, List.forall_mem_append, forall_shows_rows_iff h hdepth, forall_shows_metrics_iff]
  constructor
  · intro hshows
    obtain ⟨⟨⟨_, hrows⟩, hstatistics⟩, hmetrics⟩ := hshows
    exact ⟨(forall_shows_statistics_iff h hrows).mp hstatistics, hrows, hmetrics⟩
  · intro hwritable
    obtain ⟨hsum, hrows, hmetrics⟩ := hwritable
    exact ⟨⟨⟨forall_shows_identity h, hrows⟩, (forall_shows_statistics_iff h hrows).mpr hsum⟩, hmetrics⟩

/-! ## Wrapped values -/

/-- What a variable says about a column, if it says something, is what raw data are wrapped to. -/
def SaysWrapped (v : Variable) (facts : ColumnFacts) : Prop :=
  ∀ w, v.extract facts = .ok (some (.value w)) → w.IsWrapped

theorem forall_saysWrapped_identity (h : facts.IsJson) : ∀ v ∈ identity, v.SaysWrapped facts := by
  obtain ⟨label, hlabel⟩ := h.label
  obtain ⟨key, hkey⟩ := h.key
  simp only [identity, List.forall_mem_cons, SaysWrapped, forall_extract_total_iff, List.not_mem_nil,
    false_implies, implies_true, and_true, Except.ok.injEq, forall_eq', hlabel, hkey, textField]
  refine ⟨?_, Value.isWrapped_text label, Value.isWrapped_text key,
    ?_, Value.isWrapped_iff.mpr (by simp),
    Value.isWrapped_iff.mpr (by simp), Value.isWrapped_iff.mpr (by simp)⟩
  · intro w hw
    rw [nameOfLabel, bind_eq_ok_iff] at hw
    obtain ⟨name, _, hw⟩ := hw
    obtain rfl := pure_eq_ok_iff.mp hw
    exact Value.isWrapped_text name
  · intro w hw
    obtain hnone | ⟨s, hs⟩ := h.dataType
    · exact Value.isWrapped_of_isJson .none (hnone ▸ hw)
    · exact Value.isWrapped_of_isJson (.text s) (hs ▸ hw)

theorem forall_saysWrapped_rows (h : facts.IsJson) : ∀ v ∈ rows, v.SaysWrapped facts := by
  have hvalue : ∀ row w, (∀ d, row = some d → d.IsJson) → facts.valueIn row = .ok w → w.IsWrapped := by
    intro row w hrow hw
    obtain ⟨d, hd, hdw, -⟩ := h.exists_ofDatum_eq_valueIn hrow hw
    exact Value.isWrapped_of_isJson hd hdw
  simp only [rows, List.forall_mem_cons, SaysWrapped, forall_extract_total_iff, List.not_mem_nil,
    false_implies, implies_true, and_true, Except.ok.injEq, forall_eq']
  exact ⟨Value.isWrapped_iff.mpr (by simp), Value.isWrapped_iff.mpr (by simp),
    Value.isWrapped_iff.mpr (by simp), fun w => hvalue _ w fun d hd => h.rows d (List.mem_of_head? hd),
    fun w => hvalue _ w fun d hd => h.rows d (List.mem_of_getLast? hd)⟩

theorem forall_saysWrapped_statistics : ∀ v ∈ statistics, v.SaysWrapped facts := by
  simp only [statistics, List.forall_mem_cons, SaysWrapped, forall_extract_optional_iff,
    Option.map_eq_some_iff, forall_exists_index, and_imp, forall_apply_eq_imp_iff₂, Value.isWrapped_iff]
  simp

theorem forall_saysWrapped_metrics : ∀ v ∈ metrics, v.SaysWrapped facts := by
  simp only [metrics, List.forall_mem_cons, SaysWrapped, forall_extract_optional_iff, Value.isWrapped_iff]
  by_cases hinclude : facts.includeMetrics = true <;> simp [hinclude]

/-- The values that the built-in variables say about a column are wrapped. -/
theorem forall_saysWrapped_builtIn (h : facts.IsJson) : ∀ v ∈ builtIn, v.SaysWrapped facts := by
  simp only [builtIn, List.forall_mem_append]
  exact ⟨⟨⟨forall_saysWrapped_identity h, forall_saysWrapped_rows h⟩, forall_saysWrapped_statistics⟩,
    forall_saysWrapped_metrics⟩

end Variable

end ColumnLabel
