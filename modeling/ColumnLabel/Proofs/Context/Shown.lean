import ColumnLabel.Context.Build
import ColumnLabel.Proofs.Context.Wrapped
import ColumnLabel.Proofs.Json.Data
import Mathlib.Data.List.Forall2

/-!
# ColumnLabel.Proofs.Context.Shown

Values that have something to show.  Of an integer that is the case when it may be written out, and of data
from JSON it is unless the data is nested too deep (`exists_ofDatum_eq_ok`).  A context can be listed exactly when each
of its values can be shown (`exists_displayValues_eq_ok_iff`).
-/

namespace ColumnLabel

namespace Value

/-- Has a value something to show? -/
def IsShown (v : Value) : Prop := ∃ d, v.display = .ok d

theorem isShown_absent : absent.IsShown := ⟨_, rfl⟩

theorem isShown_bool (b : Bool) : (bool b).IsShown := ⟨_, rfl⟩

theorem isShown_text (s : String) : (text s).IsShown := ⟨_, rfl⟩

theorem isShown_number_iff {n : Number} : (number n).IsShown ↔ ∃ cs, n.display = .ok cs := by
  rw [IsShown, display]
  cases n.display with
  | ok cs => exact iff_of_true ⟨_, rfl⟩ ⟨cs, rfl⟩
  | error fault =>
      refine iff_of_false ?_ (by simp)
      intro hshown
      obtain ⟨d, hd⟩ := hshown
      contradiction

theorem isShown_int_iff {i : Int} : (number (.int i)).IsShown ↔ Numeral.isWritable i = true := by
  rw [isShown_number_iff, Number.display]
  by_cases h : Numeral.isWritable i = true
  · simp [h]
  · simp [h]

theorem isShown_double (x : Double) : (number (.double x)).IsShown := by
  rw [isShown_number_iff]
  cases x with
  | nan => exact ⟨_, rfl⟩
  | infinite negative => exact ⟨_, rfl⟩
  | finite negative m =>
      rw [Number.display]
      cases (Double.finite negative m).toInt? with
      | none => exact ⟨_, rfl⟩
      | some i => exact ⟨_, rfl⟩

theorem isShown_record_iff {r : Record} (h : (Datum.record r).IsJson) :
    (record r).IsShown ↔ (Datum.record r).depth ≤ maxDepth := by
  rw [IsShown, display, exists_bind_pure_eq_ok_iff, Json.exists_writeRecord_eq_ok_iff h]

theorem isShown_list_iff {items : List Datum} (h : ∀ d ∈ items, d.IsJson) :
    (list items).IsShown ↔ (Datum.list items).depth ≤ maxDepth := by
  rw [IsShown, display, exists_bind_pure_eq_ok_iff, Json.exists_writeList_eq_ok_iff h]

/-- Data that JSON has a form for makes a value, which can be shown if the data is not nested too deep. -/
theorem exists_ofDatum_eq_ok {d : Datum} (h : d.IsJson) :
    ∃ v, ofDatum d = .ok v ∧ (d.depth ≤ maxDepth → v.IsShown) := by
  cases h with
  | none => exact ⟨.absent, rfl, fun _ => isShown_absent⟩
  | bool b => exact ⟨.bool b, rfl, fun _ => isShown_bool b⟩
  | int h => exact ⟨_, rfl, fun _ => isShown_int_iff.mpr h⟩
  | double x => exact ⟨_, rfl, fun _ => isShown_double x⟩
  | text s => exact ⟨.text s, rfl, fun _ => isShown_text s⟩
  | list h => exact ⟨_, rfl, (isShown_list_iff h).mpr⟩
  | record hkeys hvalues => exact ⟨_, rfl, (isShown_record_iff (.record hkeys hvalues)).mpr⟩

/-- A value that is made from such data is wrapped. -/
theorem isWrapped_of_isJson {d : Datum} {v : Value} (h : d.IsJson) (hv : ofDatum d = .ok v) :
    v.IsWrapped := by
  have hraw : d.IsRaw := by cases h <;> trivial
  exact ⟨d, hraw, hv⟩

end Value

namespace Context

/-! ## Listing a context -/

/-- A context can be listed when each of its values can be shown. -/
theorem exists_displayValues_eq_ok_iff (c : Context) :
    (∃ shown, c.displayValues = .ok shown) ↔ ∀ e ∈ c.entries, e.2.IsShown := by
  rw [displayValues, exists_mapM_eq_ok_iff]
  refine forall₂_congr fun e _ => ?_
  simp only [bind_eq_ok_iff, pure_eq_ok_iff, Value.IsShown]
  constructor
  · intro hlisted
    obtain ⟨_, d, hd, _⟩ := hlisted
    exact ⟨d, hd⟩
  · intro hshown
    obtain ⟨d, hd⟩ := hshown
    exact ⟨_, d, hd, rfl⟩

/-- The values of a context as texts: each name with what its value shows. -/
def IsListed (c : Context) (texts : List (String × String)) : Prop :=
  List.Forall₂ (fun e t => e.1 = t.1 ∧ e.2.display = .ok (.text t.2)) c.entries texts

/-- Listing wrapped values gives texts. -/
theorem IsWrapped.exists_isListed {c : Context} (hc : c.IsWrapped) {shown : List (String × Datum)}
    (h : c.displayValues = .ok shown) :
    ∃ texts, c.IsListed texts ∧ shown = texts.map fun t => (t.1, .text t.2) := by
  obtain ⟨es, hes⟩ := c
  simp only [IsWrapped, displayValues, IsListed] at hc h ⊢
  clear hes
  induction es generalizing shown with
  | nil =>
      obtain rfl : [] = shown := by simpa [pure_eq_ok_iff] using h
      exact ⟨[], .nil, rfl⟩
  | cons e es ih =>
      obtain ⟨he, hrest⟩ := List.forall_mem_cons.mp hc
      simp only [List.mapM_cons, bind_eq_ok_iff, pure_eq_ok_iff] at h
      obtain ⟨_, ⟨d, hd, rfl⟩, rest, hshown, rfl⟩ := h
      obtain ⟨text, rfl⟩ := he.display_eq_text hd
      obtain ⟨texts, htexts, rfl⟩ := ih hrest hshown
      exact ⟨(e.1, text) :: texts, .cons ⟨rfl, hd⟩ htexts, rfl⟩

theorem IsListed.map_fst_eq {c : Context} {texts : List (String × String)} (h : c.IsListed texts) :
    texts.map (·.1) = c.names := by
  rw [IsListed] at h
  rw [names]
  generalize c.entries = es at h ⊢
  induction h with
  | nil => rfl
  | cons he _ ih => rw [List.map_cons, List.map_cons, ih, he.1]

/-- The text of a name is what its value shows. -/
theorem IsListed.map_display_get? {c : Context} {texts : List (String × String)} (h : c.IsListed texts)
    (name : String) :
    (c.get? name).map Value.display = (texts.lookup name).map fun text => .ok (.text text) := by
  rw [IsListed] at h
  rw [get?]
  generalize c.entries = es at h ⊢
  induction h with
  | nil => rfl
  | @cons e t es texts he _ ih =>
      obtain ⟨hfst, hdisplay⟩ := he
      rw [List.find?_cons, List.lookup_cons, ← hfst]
      by_cases hname : e.1 = name
      · simp [hname, hdisplay]
      · have hbeq : (name == e.1) = false := beq_eq_false_iff_ne.mpr (Ne.symm hname)
        simpa [hname, hbeq] using ih

end Context

end ColumnLabel
