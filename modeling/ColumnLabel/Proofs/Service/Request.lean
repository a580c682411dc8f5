import ColumnLabel.Proofs.Context.Built
import ColumnLabel.Service.Request

/-!
# ColumnLabel.Proofs.Service.Request

What the checks of a request promise.  A request that was taken from JSON and passed the checks has texts for the
label and the key of its column, records for its rows and its auxiliary values, and texts for its metrics
(`isJson_of_renderRequest`), and none of these is nested deeper than the JSON.  So all facts about its column are
known, but for the statistics of its numeric cells (`gather_eq`).
-/

namespace ColumnLabel.Service

open Checked

variable {α β : Type}

/-! ## Checks that passed -/

theorem Checked.both_eq_ok_iff {f : Checked (α → β)} {a : Checked α} {b : β} :
    both f a = .ok b ↔ ∃ g x, f = .ok g ∧ a = .ok x ∧ g x = b := by
  cases f <;> cases a <;> simp [both]

theorem Checked.within_eq_ok_iff {step : Step} {a : Checked α} {x : α} :
    within step a = .ok x ↔ a = .ok x := by
  cases a <;> simp [within]

/-- Checked items come from the items of the list. -/
theorem Checked.exists_of_mem_items {check : Datum → Checked α} {index : Nat} {ds : List Datum}
    {xs : List α} (h : items check index ds = .ok xs) {x : α} (hx : x ∈ xs) :
    ∃ d ∈ ds, check d = .ok x := by
  induction ds generalizing index xs with
  | nil =>
      obtain rfl := Except.ok.inj h
      contradiction
  | cons d ds ih =>
      simp only [items, both_eq_ok_iff, map_eq_ok_iff, within_eq_ok_iff] at h
      obtain ⟨_, ys, ⟨y, hy, rfl⟩, hys, rfl⟩ := h
      obtain rfl | hx := List.mem_cons.mp hx
      · exact ⟨d, List.mem_cons_self, hy⟩
      · obtain ⟨d', hd', hcheck⟩ := ih hys hx
        exact ⟨d', List.mem_cons_of_mem d hd', hcheck⟩

section

variable {r : Record} {name : String} {check : Datum → Checked α} {x : α}

theorem exists_of_required (h : required r name check = .ok x) :
    ∃ d, r.get? (.text name) = some d ∧ check d = .ok x := by
  rw [required, within_eq_ok_iff] at h
  split at h
  · next d hd => exact ⟨d, hd, h⟩
  · contradiction

theorem exists_of_withDefault {default : α} (h : withDefault r name default check = .ok x) :
    default = x ∨ ∃ d, r.get? (.text name) = some d ∧ check d = .ok x := by
  rw [withDefault, within_eq_ok_iff] at h
  split at h
  · next d hd => exact Or.inr ⟨d, hd, h⟩
  · exact Or.inl (Except.ok.inj h)

end

theorem exists_of_nullable {check : Datum → Checked α} {d : Datum} {x : Option α}
    (h : nullable check d = .ok x) : none = x ∨ ∃ y, check d = .ok y ∧ some y = x := by
  unfold nullable at h
  split at h
  · exact Or.inl (Except.ok.inj h)
  · exact Or.inr (map_eq_ok_iff.mp h)

theorem eq_of_record {d x : Datum} (h : record d = .ok x) : d = x ∧ ∃ r, x = .record r := by
  cases d with
  | record r =>
      obtain rfl := Except.ok.inj h
      exact ⟨rfl, r, rfl⟩
  | _ => contradiction

theorem exists_of_mem_list {check : Datum → Checked α} {d : Datum} {xs : List α}
    (h : list check d = .ok xs) {x : α} (hx : x ∈ xs) :
    ∃ items, d = .list items ∧ ∃ item ∈ items, check item = .ok x := by
  cases d with
  | list items => exact ⟨items, rfl, exists_of_mem_items h hx⟩
  | _ => contradiction

/-! ## Requests that passed -/

/-- A request whose parts come from JSON. -/
structure RenderRequest.IsJson (request : RenderRequest) : Prop where
  label : ∃ s, request.column.label = .text s
  key : ∃ s, request.column.key = .text s
  dataType : request.column.dataType = .none ∨ ∃ s, request.column.dataType = .text s
  rows : ∃ rows, request.input.rows = .list rows ∧ ∀ row ∈ rows, row.IsJson
  auxiliary : request.input.auxiliary = .none ∨
    ∃ es, request.input.auxiliary = .record (.entries es) ∧ Record.AreJson es
  metrics : request.input.metrics = .none ∨
    ∃ ms : List String, request.input.metrics = .list (ms.map .text)

/-- The rows of a request. -/
def RenderRequest.rows (request : RenderRequest) : List Datum :=
  match request.input.rows with
  | .list rows => rows
  | _ => []

/-- No data in a request is nested too deep. -/
structure RenderRequest.IsShallow (request : RenderRequest) : Prop where
  rows : ∀ row ∈ request.rows, row.depth ≤ maxDepth
  auxiliary : request.input.auxiliary.depth ≤ maxDepth

theorem eq_text_of_columnPayload {r : Record} {column : Column} (h : columnPayload r = .ok column) :
    (∃ s, column.label = .text s) ∧ (∃ s, column.key = .text s) ∧
      (column.dataType = .none ∨ ∃ s, column.dataType = .text s) := by
  simp only [columnPayload, both_eq_ok_iff, map_eq_ok_iff] at h
  obtain ⟨_, percent, ⟨_, metric, ⟨_, numeric, ⟨_, dataType, ⟨_, key, ⟨label, _, rfl⟩, _, rfl⟩, _, rfl⟩,
    _, rfl⟩, _, rfl⟩, _, rfl⟩ := h
  refine ⟨⟨label, rfl⟩, ⟨_, rfl⟩, ?_⟩
  cases dataType with
  | none => exact .inl rfl
  | some s => exact .inr ⟨s, rfl⟩

/-- Each part of a request that passed the checks is the field that it was checked as, or stands in for it. -/
theorem exists_of_renderRequest {r : Record} {request : RenderRequest} (h : renderRequest r = .ok request) :
    (∃ payload, columnPayload payload = .ok request.column) ∧
    (∃ rows, request.input.rows = .list rows ∧
      ∀ row ∈ rows, ∃ items, r.get? (.text "rows") = some (.list items) ∧ row ∈ items) ∧
    (request.input.auxiliary = .none ∨
      ∃ es, request.input.auxiliary = .record es ∧ r.get? (.text "aux_values") = some (.record es)) ∧
    (request.input.metrics = .none ∨ ∃ ms : List String, request.input.metrics = .list (ms.map .text)) := by
  simp only [renderRequest, both_eq_ok_iff, map_eq_ok_iff] at h
  obtain ⟨_, escape, ⟨_, includeMetrics, ⟨_, metrics, ⟨_, auxiliary, ⟨_, rows, ⟨_, column,
    ⟨template, _, rfl⟩, hcolumn, rfl⟩, hrows, rfl⟩, hauxiliary, rfl⟩, hmetrics, rfl⟩, _, rfl⟩,
    _, rfl⟩ := h
  refine ⟨?_, ⟨rows, rfl, fun row hrow => ?_⟩, ?_, ?_⟩
  · obtain ⟨payload, hpayload, hcolumn⟩ := exists_of_required hcolumn
    cases payload with
    | record p => exact ⟨p, hcolumn⟩
    | _ => contradiction
  · obtain rfl | ⟨d, hd, hlist⟩ := exists_of_withDefault hrows
    · contradiction
    · obtain ⟨items, rfl, item, hitem, hcheck⟩ := exists_of_mem_list hlist hrow
      obtain ⟨rfl, _⟩ := eq_of_record hcheck
      exact ⟨items, hd, hitem⟩
  · obtain rfl | ⟨d, hd, hnull⟩ := exists_of_withDefault hauxiliary
    · exact .inl rfl
    · obtain rfl | ⟨y, hy, rfl⟩ := exists_of_nullable hnull
      · exact .inl rfl
      · obtain ⟨rfl, es, rfl⟩ := eq_of_record hy
        exact .inr ⟨es, rfl, hd⟩
  · cases metrics with
    | none => exact .inl rfl
    | some ms => exact .inr ⟨ms, rfl⟩

/-- **Requests.**  What passes the checks has the parts that they ask for. -/
theorem isJson_of_renderRequest {r : Record} {request : RenderRequest} (hr : (Datum.record r).IsJson)
    (h : renderRequest r = .ok request) : request.IsJson := by
  obtain ⟨⟨payload, hpayload⟩, ⟨rows, hrows, hitems⟩, hauxiliary, hmetrics⟩ := exists_of_renderRequest h
  obtain ⟨hlabel, hkey, hdataType⟩ := eq_text_of_columnPayload hpayload
  refine ⟨hlabel, hkey, hdataType, ⟨rows, hrows, fun row hrow => ?_⟩, ?_, hmetrics⟩
  · obtain ⟨items, hget, hmem⟩ := hitems row hrow
    cases Record.isJson_of_get? hr hget with
    | list hjson => exact hjson row hmem
  · obtain hnone | ⟨es, hes, hget⟩ := hauxiliary
    · exact .inl hnone
    · have hjson := Record.isJson_of_get? hr hget
      cases hjson with
      | record hkeys hvalues => exact .inr ⟨_, hes, (Datum.IsJson.record hkeys hvalues).areJson⟩

/-- And they are nested no deeper than what it was checked in. -/
theorem isShallow_of_renderRequest {r : Record} {request : RenderRequest} (hr : (Datum.record r).FitsJson maxDepth)
    (h : renderRequest r = .ok request) : request.IsShallow := by
  obtain ⟨-, ⟨rows, hrows, hitems⟩, hauxiliary, -⟩ := exists_of_renderRequest h
  obtain ⟨hjson, hdepth⟩ := hr
  constructor
  · rw [RenderRequest.rows, hrows]
    intro row hrow
    obtain ⟨items, hget, hmem⟩ := hitems row hrow
    have hitemsDepth := Record.depth_lt_of_get? hjson hget
    have hrowDepth := depthOfItems_le_iff.mp (Nat.le_refl _) row hmem
    rw [Datum.depth_list] at hitemsDepth
    omega
  · obtain hnone | ⟨es, hes, hget⟩ := hauxiliary
    · rw [hnone]
      simp [Datum.depth]
    · rw [hes]
      exact Nat.le_trans (Nat.le_of_lt (Record.depth_lt_of_get? hjson hget)) hdepth

/-! ## The facts about the column of a request -/

namespace RenderRequest

/-- The metrics of a request. -/
def metrics (request : RenderRequest) : List Datum :=
  match request.input.metrics with
  | .list metrics => metrics
  | _ => []

/-- The numeric cells of the column of a request. -/
def numbers (request : RenderRequest) : List Number :=
  request.rows.filterMap (Statistics.numberIn? request.column.key)

end RenderRequest

theorem itemsOrNone_list (items : List Datum) : (Datum.list items).itemsOrNone = .ok items := by
  cases items <;> rfl

theorem mapM_plain_texts (ms : List String) :
    (ms.map Datum.text).mapM (fun d => return String.ofList (← d.plain)) =
      (.ok ms : Except Fault (List String)) := by
  induction ms with
  | nil => rfl
  | cons m ms ih =>
      rw [List.map_cons, List.mapM_cons, ih]
      show Except.ok (String.ofList m.toList :: ms) = _
      rw [String.ofList_toList]

/-- The facts about the column of a request: all of them are known but the statistics. -/
theorem RenderRequest.IsJson.gather_eq {request : RenderRequest} (h : request.IsJson)
    (metricsByDefault : Bool) :
    ∃ metrics : List String, metrics.length = request.metrics.length ∧
      ColumnFacts.gather metricsByDefault (.column request.column) request.input =
        (Statistics.ofNumbers request.numbers).map fun statistics =>
          { column := request.column
            rows := request.rows
            statistics
            metrics
            includeMetrics := request.input.includeMetrics.getD metricsByDefault } := by
  obtain ⟨rows, hrows, _⟩ := h.rows
  obtain ⟨key, hkey⟩ := h.key
  have hmetrics : ∃ ms : List String, ms.length = request.metrics.length ∧
      request.input.metrics.itemsOrNone = .ok (ms.map .text) := by
    obtain hnone | ⟨ms, hms⟩ := h.metrics
    · exact ⟨[], by simp [RenderRequest.metrics, hnone], by rw [hnone]; rfl⟩
    · exact ⟨ms, by simp [RenderRequest.metrics, hms], by rw [hms, itemsOrNone_list]⟩
  obtain ⟨ms, hlength, hitems⟩ := hmetrics
  have hcells : Statistics.ofRows rows request.column.key = Statistics.ofNumbers request.numbers := by
    have hlookup : request.column.key.keyFault? = none := by simp [hkey, Datum.keyFault?]
    rw [Statistics.ofRows, Statistics.cells_eq hlookup, numbers, RenderRequest.rows, hrows]
    rfl
  refine ⟨ms, hlength, ?_⟩
  simp only [ColumnFacts.gather, hrows, itemsOrNone_list, ColumnSource.descriptor, ok_bind, hitems,
    mapM_plain_texts]
  rw [hcells, RenderRequest.rows, hrows]
  cases Statistics.ofNumbers request.numbers <;> rfl

end ColumnLabel.Service
