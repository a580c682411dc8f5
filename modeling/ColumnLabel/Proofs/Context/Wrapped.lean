import ColumnLabel.Context.Basic
import ColumnLabel.Proofs.Steps

/-!
# ColumnLabel.Proofs.Context.Wrapped

Contexts whose values were wrapped from raw data.

Wrapping checks what it is given, so a wrapped value never carries unchecked content, and what it shows,
if it can be shown, is a text (`display_eq_text`).  The contexts that are made from the entries of a record
are of this kind (`isWrapped_ofDatum`), and setting a name to a wrapped value keeps them so
(`IsWrapped.set`).
-/

namespace ColumnLabel

/-- Data that is no value yet. -/
def Datum.IsRaw : Datum → Prop
  | .value _ => False
  | _ => True

/-! ## Values -/

namespace Value

/-- The value was made from raw data. -/
def IsWrapped (v : Value) : Prop := ∃ d : Datum, d.IsRaw ∧ ofDatum d = .ok v

theorem isWrapped_text (s : String) : (Value.text s).IsWrapped := ⟨.text s, trivial, rfl⟩

theorem isWrapped_int (i : Int) : (Value.number (.int i)).IsWrapped := ⟨.int i, trivial, rfl⟩

theorem isWrapped_list (items : List Datum) : (Value.list items).IsWrapped := ⟨.list items, trivial, rfl⟩

/-- Wrapping leaves nothing unchecked. -/
theorem IsWrapped.ne_unchecked {v : Value} (h : v.IsWrapped) (content : Datum) :
    v ≠ .unchecked content := by
  rintro rfl
  obtain ⟨d, hraw, hv⟩ := h
  cases d with
  | value w => exact hraw
  | decimal d =>
      simp only [ofDatum] at hv
      split at hv
      · contradiction
      · injection hv with hv
        contradiction
  | bytes _ | date _ | time _ | dateTime _ =>
      simp only [ofDatum, bind_eq_ok_iff] at hv
      obtain ⟨cs, _, hv⟩ := hv
      have htext := pure_eq_ok_iff.mp hv
      contradiction
  | _ =>
      injection hv with hv
      contradiction

/-- Nothing else sets wrapped values apart: any other one is what its own content is wrapped to. -/
theorem isWrapped_iff {v : Value} : v.IsWrapped ↔ ∀ content, v ≠ .unchecked content := by
  constructor
  · exact IsWrapped.ne_unchecked
  · intro hchecked
    cases v with
    | absent => exact ⟨.none, trivial, rfl⟩
    | bool b => exact ⟨.bool b, trivial, rfl⟩
    | number n =>
        cases n with
        | int i => exact ⟨.int i, trivial, rfl⟩
        | double x => exact ⟨.double x, trivial, rfl⟩
    | text s => exact isWrapped_text s
    | unchecked content => exact absurd rfl (hchecked content)
    | record r => exact ⟨.record r, trivial, rfl⟩
    | list items => exact ⟨.list items, trivial, rfl⟩

theorem eq_text_of_bind {x : Except Fault (List Char)} {d : Datum}
    (h : (x >>= fun cs => pure (.text (String.ofList cs))) = .ok d) : ∃ s, d = .text s := by
  rw [bind_eq_ok_iff] at h
  obtain ⟨cs, _, h⟩ := h
  exact ⟨String.ofList cs, (pure_eq_ok_iff.mp h).symm⟩

/-- What a wrapped value shows is a text. -/
theorem IsWrapped.display_eq_text {v : Value} (h : v.IsWrapped) {d : Datum} (hd : v.display = .ok d) :
    ∃ s, d = .text s := by
  cases v with
  | absent => exact ⟨"", by simpa [display, eq_comm] using hd⟩
  | bool b => exact ⟨ofBool b, by simpa [display, eq_comm] using hd⟩
  | number n => exact eq_text_of_bind hd
  | text s => exact ⟨s, by simpa [display, eq_comm] using hd⟩
  | unchecked content => exact absurd rfl (h.ne_unchecked content)
  | record r => exact eq_text_of_bind hd
  | list items => exact eq_text_of_bind hd

end Value

/-! ## Contexts -/

namespace Context

/-- Every value was made from raw data. -/
def IsWrapped (c : Context) : Prop := ∀ e ∈ c.entries, e.2.IsWrapped

theorem IsWrapped.get? {c : Context} (h : c.IsWrapped) {name : String} {v : Value}
    (hv : c.get? name = some v) : v.IsWrapped := by
  obtain ⟨e, he, rfl⟩ := Option.map_eq_some_iff.mp hv
  exact h e (List.mem_of_find?_eq_some he)

theorem isWrapped_empty : empty.IsWrapped := by simp [IsWrapped, empty]

theorem mem_setEntry {name : String} {value : Value} {es : List (String × Value)} {e : String × Value}
    (h : e ∈ setEntry name value es) : e.2 = value ∨ e ∈ es := by
  induction es with
  | nil =>
      obtain rfl : e = (name, value) := by simpa [setEntry] using h
      exact .inl rfl
  | cons first rest ih =>
      obtain ⟨n, v⟩ := first
      simp only [setEntry] at h
      split at h
      · rcases List.mem_cons.mp h with rfl | h
        · exact .inl rfl
        · exact .inr (List.mem_cons_of_mem _ h)
      · rcases List.mem_cons.mp h with rfl | h
        · exact .inr List.mem_cons_self
        · exact (ih h).imp_right (List.mem_cons_of_mem _)

/-- What holds of all values of a context still does when a name is set to one of which it holds. -/
theorem forall_set {P : Value → Prop} {c : Context} (hc : ∀ e ∈ c.entries, P e.2) (name : String)
    {value : Value} (hv : P value) : ∀ e ∈ (c.set name value).entries, P e.2 := by
  intro e he
  obtain heq | he := mem_setEntry he
  · rwa [heq]
  · exact hc e he

/-- Setting a name to a wrapped value keeps all values wrapped. -/
theorem IsWrapped.set {c : Context} (h : c.IsWrapped) (name : String) {value : Value}
    (hv : value.IsWrapped) : (c.set name value).IsWrapped :=
  forall_set h name hv

theorem isWrapped_addEntries {c c' : Context} (hc : c.IsWrapped) {es : List (Datum × Datum)}
    (hraw : ∀ e ∈ es, e.2.IsRaw) (h : c.addEntries es = .ok c') : c'.IsWrapped := by
  induction es generalizing c with
  | nil =>
      obtain rfl : c = c' := by simpa [addEntries] using h
      exact hc
  | cons e rest ih =>
      obtain ⟨name, datum⟩ := e
      obtain ⟨hdatum, hrest⟩ := List.forall_mem_cons.mp hraw
      rw [addEntries, bind_eq_ok_iff] at h
      obtain ⟨value, hv, h⟩ := h
      rw [bind_eq_ok_iff] at h
      obtain ⟨cs, _, h⟩ := h
      exact ih (hc.set _ ⟨datum, hdatum, hv⟩) hrest h

/-- A context made from a record of raw data is wrapped. -/
theorem isWrapped_ofDatum {d : Datum} {c : Context} (h : ofDatum d = .ok c)
    (hraw : ∀ r, d = .record r → ∀ e ∈ r.toList, e.2.IsRaw) : c.IsWrapped := by
  simp only [ofDatum] at h
  split at h
  · obtain rfl : empty = c := by simpa using h
    exact isWrapped_empty
  · split at h
    · next r _ => exact isWrapped_addEntries isWrapped_empty (hraw r rfl) h
    · contradiction

end Context

end ColumnLabel
