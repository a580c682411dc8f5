import ColumnLabel.Proofs.Column.Integers
import ColumnLabel.Proofs.Context.Merged
import ColumnLabel.Variable.BuiltIn

/-!
# ColumnLabel.Proofs.Context.Statistics

The statistics in the context of a column.

Five variables speak about the numeric cells, and all of them ask the same statistics.  So they are there together or
not at all, and where they are, there is a numeric cell (`Registry.holdsStatistics_of_build_eq_ok`).
-/

namespace ColumnLabel

open Statistics (HasNumber)

/-! ## Facts -/

/-- The facts about a column are taken from what was handed over. -/
theorem ColumnFacts.eq_of_gather_eq_ok {metricsByDefault : Bool} {source : ColumnSource} {input : BuildInput}
    {facts : ColumnFacts} (h : gather metricsByDefault source input = .ok facts) :
    source.descriptor = .ok facts.column ∧ input.rows.itemsOrNone = .ok facts.rows ∧
      Statistics.ofRows facts.rows facts.column.key = .ok facts.statistics := by
  simp only [gather, bind_eq_ok_iff, pure_eq_ok_iff] at h
  obtain ⟨rows, hrows, column, hcolumn, s, hs, _, _, _, _, rfl⟩ := h
  exact ⟨hcolumn, hrows, hs⟩

/-! ## Variables -/

namespace Variable

variable {facts : ColumnFacts} {v : Variable}

theorem said?_optional (name description : String) (category : Category)
    (value? : ColumnFacts → Option Value) :
    (optional name category description value?).said? facts = (value? facts).map .value := rfl

theorem said?_total_of_eq_ok {name description : String} {category : Category}
    {value : ColumnFacts → Except Fault Value} {w : Value} (h : value facts = .ok w) :
    (total name category description value).said? facts = some (.value w) := by
  simp only [said?_eq_some_iff, total, h, ok_bind]
  rfl

/-- The variables about the numeric cells say something where there are statistics. -/
theorem isSome_said?_of_mem_statistics (hv : v ∈ statistics) :
    (v.said? facts).isSome = facts.statistics.isSome := by
  simp only [statistics, List.mem_cons, List.not_mem_nil, or_false] at hv
  rcases hv with rfl | rfl | rfl | rfl | rfl
  iterate 5 rw [said?_optional, Option.isSome_map, Option.isSome_map]

/-- One of them says the count. -/
theorem exists_mem_statistics_count :
    ∃ v ∈ statistics, v.name = "count" ∧
      ∀ facts, v.said? facts = facts.statistics.map fun s => .value (.number (.int s.count)) := by
  refine ⟨_, List.mem_of_getElem? (i := 4) rfl, rfl, fun facts => ?_⟩
  rw [said?_optional, Option.map_map]
  rfl

theorem mem_builtIn_of_mem_statistics (hv : v ∈ statistics) : v ∈ builtIn :=
  List.mem_append_left _ (List.mem_append_right _ hv)

theorem mem_builtIn_of_mem_rows (hv : v ∈ rows) : v ∈ builtIn :=
  List.mem_append_left _ (List.mem_append_left _ (List.mem_append_right _ hv))

end Variable

/-! ## Contexts -/

/-- The statistics in a context for a column with some rows. -/
structure Context.HoldsStatistics (context : Context) (column : Column) (rows : List Datum) : Prop where
  /-- They are all there where a row has a number, and else none of them is. -/
  mem_names_iff : ∀ name ∈ ["sum", "avg", "min", "max", "count"],
    name ∈ context.names ↔ ∃ row ∈ rows, HasNumber column.key row
  /-- The number of rows is always there. -/
  row_count : context.get? "row_count" = some (.number (.int rows.length))
  /-- It is not exceeded by the count. -/
  count_le : ∀ v, context.get? "count" = some v → ∃ n ≤ rows.length, v = .number (.int n)

theorem Registry.holdsStatistics_of_build_eq_ok {metricsByDefault : Bool} {logger : String}
    {source : ColumnSource} {input : BuildInput} {context : Context}
    (h : (builtIn.build metricsByDefault logger source input).1 = .ok context) :
    ∃ column rows, source.descriptor = .ok column ∧ input.rows.itemsOrNone = .ok rows ∧
      context.HoldsStatistics column rows := by
  obtain ⟨facts, es, named, values, hfacts, _, _, hvalues, rfl⟩ := build_eq_ok_iff.mp h
  obtain ⟨hcolumn, hrows, hstatistics⟩ := ColumnFacts.eq_of_gather_eq_ok hfacts
  have hmerges := merges_ofList hvalues
  refine ⟨facts.column, facts.rows, hcolumn, hrows, ?_, ?_, ?_⟩
  · intro name hname
    obtain ⟨v, hv, rfl⟩ := List.mem_map.mp (show name ∈ Variable.statistics.map (·.name) from hname)
    rw [hmerges.mem_names_iff (Variable.mem_builtIn_of_mem_statistics hv),
      Variable.isSome_said?_of_mem_statistics hv, Statistics.isSome_iff_of_ofRows hstatistics]
  · obtain ⟨w, hw, hget⟩ := hmerges.own (Variable.total "row_count" _ _ _)
      (Variable.mem_builtIn_of_mem_rows List.mem_cons_self) _ (Variable.said?_total_of_eq_ok rfl)
    rw [← Except.ok.inj hw] at hget
    exact hget
  · intro value hvalue
    obtain ⟨v, hv, hname, hsaid⟩ := Variable.exists_mem_statistics_count
    have hbuiltIn := Variable.mem_builtIn_of_mem_statistics hv
    specialize hsaid facts
    rw [← hname] at hvalue
    cases hs : facts.statistics with
    | none =>
        rw [hs, Option.map_none] at hsaid
        rw [hmerges.silent v hbuiltIn hsaid] at hvalue
        contradiction
    | some s =>
        rw [hs, Option.map_some] at hsaid
        rw [hs] at hstatistics
        obtain ⟨w, hw, hget⟩ := hmerges.own v hbuiltIn _ hsaid
        rw [hvalue, ← Except.ok.inj hw] at hget
        exact ⟨s.count, Statistics.count_le_of_ofRows hstatistics, Option.some.inj hget⟩

/-! ## Columns of integers -/

namespace Statistics

/-- **Columns of integers.**  Where all numeric cells are integers, there are no statistics exactly when there is no
numeric cell, the statistics describe the integers in the cells, all that can fail is the mean, and what comes of it
outlasts every change to the rows that keeps the numbers.  In a context the statistics are all there or all missing,
and the count does not exceed the number of rows. -/
theorem ofRows_of_areIntegers :
    (∀ key rows, key.keyFault? = none → AreIntegers key rows →
      (ofRows rows key = .ok none ↔ ∀ row ∈ rows, ¬ HasNumber key row) ∧
        (∀ s, ofRows rows key = .ok (some s) →
          ∃ least greatest, s.Describes (integers key rows) least greatest) ∧
        (∀ fault, ofRows rows key = .error fault → fault = .quotientOutOfRange) ∧
        ∀ others, Relation.EqvGen (IsChange key) rows others → ofRows others key = ofRows rows key) ∧
      ∀ metricsByDefault logger source input context,
        (Registry.builtIn.build metricsByDefault logger source input).1 = .ok context →
        ∃ column rows, source.descriptor = .ok column ∧ input.rows.itemsOrNone = .ok rows ∧
          context.HoldsStatistics column rows := by
  refine ⟨fun key rows hkey hintegers => ⟨?_, ?_, ?_, ?_⟩,
    fun _ _ _ _ _ => Registry.holdsStatistics_of_build_eq_ok⟩
  · rw [hintegers.ofRows_eq hkey, ofNumbers_eq_ok_none_iff, List.map_eq_nil_iff, hintegers.integers_eq_nil_iff]
  · intro s hs
    rw [hintegers.ofRows_eq hkey] at hs
    exact exists_describes hs
  · intro fault hfault
    rw [hintegers.ofRows_eq hkey] at hfault
    exact eq_quotientOutOfRange hfault
  · intro others hchanges
    exact hintegers.ofRows_eq_of_changes hkey hchanges

/-- Rows of several kinds, two of which have an integer. -/
def mixedRows : List Datum :=
  [.record (.entries [(.text "x", .int 3)]), .text "x", .record (.entries [(.text "x", .text "3")]),
    .record (.entries [(.text "x", .bool true)]), .record (.entries [(.text "x", .int (-1))])]

theorem areIntegers_mixedRows : AreIntegers (.text "x") mixedRows := by
  intro r d hr hd hnumeric
  simp only [mixedRows, List.mem_cons, List.not_mem_nil, or_false, Datum.record.injEq, reduceCtorEq,
    false_or] at hr
  rcases hr with rfl | rfl | rfl | rfl
  · exact ⟨3, (Option.some.inj hd).symm⟩
  · rw [← Option.some.inj hd] at hnumeric
    contradiction
  · rw [← Option.some.inj hd] at hnumeric
    contradiction
  · exact ⟨-1, (Option.some.inj hd).symm⟩

/-- The statistics of mixed rows are those of their two integers, in the opposite order and with an empty record more
as well, and the context of the column has them. -/
theorem ofRows_mixedRows :
    (∃ s least greatest, ofRows mixedRows (.text "x") = .ok (some s) ∧ s.Describes [3, -1] least greatest) ∧
      ofRows (.record (.entries []) :: mixedRows.reverse) (.text "x") = ofRows mixedRows (.text "x") ∧
      ∃ context, (Registry.builtIn.build false "labels" (.column { label := .text "x", key := .text "x" })
          { rows := .list mixedRows }).1 = .ok context ∧
        "sum" ∈ context.names ∧ context.get? "row_count" = some (.number (.int 5)) := by
  obtain ⟨hintegers, hcontexts⟩ := ofRows_of_areIntegers
  obtain ⟨-, hdescribes, -, hchanges⟩ := hintegers (.text "x") mixedRows rfl areIntegers_mixedRows
  refine ⟨?_, ?_, ?_⟩
  · obtain ⟨s, hs⟩ : ∃ s, ofRows mixedRows (.text "x") = .ok (some s) := ⟨_, rfl⟩
    obtain ⟨least, greatest, h⟩ := hdescribes s hs
    exact ⟨s, least, greatest, hs, h⟩
  · refine hchanges _ (.trans _ _ _ (.rel _ _ (.reorder mixedRows.reverse_perm.symm)) ?_)
    refine .rel _ _ (.insert [] _ ?_)
    intro hnumber
    obtain ⟨r, d, hr, hd, -⟩ := hnumber
    obtain rfl := Datum.record.inj hr
    contradiction
  · obtain ⟨context, hcontext⟩ : ∃ context, (Registry.builtIn.build false "labels"
        (.column { label := .text "x", key := .text "x" }) { rows := .list mixedRows }).1 = .ok context := ⟨_, rfl⟩
    obtain ⟨column, rows, hcolumn, hrows, h⟩ := hcontexts _ _ _ _ context hcontext
    obtain rfl := Except.ok.inj hcolumn
    obtain rfl := Except.ok.inj hrows
    have hsum := (h.mem_names_iff "sum" (by decide)).mpr ⟨_, List.mem_cons_self, _, _, rfl, rfl, trivial⟩
    exact ⟨context, hcontext, hsum, h.row_count⟩

end Statistics

end ColumnLabel
