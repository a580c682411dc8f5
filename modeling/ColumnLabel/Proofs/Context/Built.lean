import ColumnLabel.Proofs.Context.Merged
import ColumnLabel.Proofs.Variable.Shown

/-!
# ColumnLabel.Proofs.Context.Built

Contexts that are built for a column.  Once the facts about the column are known and the auxiliary values
come from JSON and are not nested too deep, there is a context, and it can be listed exactly when what the variables of
the registry say can be shown (`exists_build_eq_ok`): an auxiliary value neither fails nor hides a variable, whose name
is reserved.
-/

namespace ColumnLabel

/-! ## What is given -/

/-- Entries with texts for keys have names. -/
theorem Record.AreTexts.exists_isNamed {P : Datum → Prop} {es : List (Datum × Datum)} (h : AreTexts P es) :
    ∃ named, List.Forall₂ IsNamed es named := by
  induction es with
  | nil => exact ⟨[], .nil⟩
  | cons e es ih =>
      obtain ⟨⟨⟨s, hs⟩, _⟩, hrest⟩ := List.forall_mem_cons.mp h
      obtain ⟨named, hnamed⟩ := ih hrest
      exact ⟨(s, e.2) :: named, .cons ⟨by rw [hs]; rfl, rfl⟩ hnamed⟩

/-- Named data are wrapped when each of them can be. -/
theorem exists_wrapAll_eq_ok {es : List (String × Datum)} (h : ∀ e ∈ es, ∃ v, Value.ofDatum e.2 = .ok v) :
    ∃ values, wrapAll es = .ok values := by
  induction es with
  | nil => exact ⟨[], rfl⟩
  | cons e es ih =>
      obtain ⟨⟨v, hv⟩, hrest⟩ := List.forall_mem_cons.mp h
      obtain ⟨values, hvalues⟩ := ih hrest
      exact ⟨(e.1, v) :: values, wrapAll_cons_eq_ok_iff.mpr ⟨v, values, hv, hvalues, rfl⟩⟩

namespace Registry

variable {registry : Registry} {facts : ColumnFacts} {es : List (Datum × Datum)}
  {named : List (String × Datum)} {P : Datum → Prop}

/-- A datum that is given to a context is the value that a variable says, or an auxiliary one. -/
theorem exists_or_of_mem_given (hwrap : ∀ v ∈ registry.toList, v.IsWrapping)
    (hnamed : List.Forall₂ IsNamed es named) (hes : Record.AreTexts P es) {e : String × Datum}
    (he : e ∈ registry.sayings facts ++ registry.unreserved named) :
    (∃ v ∈ registry.toList, ∃ w, v.extract facts = .ok (some (.value w)) ∧ e.2 = .value w) ∨ P e.2 := by
  obtain he | he := List.mem_append.mp he
  · obtain ⟨v, hv, hsaid, _⟩ := mem_sayings_iff.mp he
    rw [Variable.said?_eq_some_iff] at hsaid
    obtain ⟨w, hw⟩ := hwrap v hv facts e.2 hsaid
    exact .inl ⟨v, hv, w, hw ▸ hsaid, hw⟩
  · obtain ⟨entry, hentry, _, hdatum⟩ := exists_mem_of_forall₂ hnamed (List.mem_filter.mp he).1
    exact .inr (hdatum ▸ (hes entry hentry).2)

/-- What holds of all values that the variables say and of all that are made from auxiliary data holds of all values of
the context. -/
theorem forall_ofList_of_wrapAll {Q : Value → Prop} {values : List (String × Value)}
    (hwrap : ∀ v ∈ registry.toList, v.IsWrapping) (hnamed : List.Forall₂ IsNamed es named)
    (hes : Record.AreTexts P es)
    (hvalues : wrapAll (registry.sayings facts ++ registry.unreserved named) = .ok values)
    (hsaid : ∀ v ∈ registry.toList, ∀ w, v.extract facts = .ok (some (.value w)) → Q w)
    (hmade : ∀ d w, P d → Value.ofDatum d = .ok w → Q w) :
    ∀ e ∈ (Context.ofList values).entries, Q e.2 := by
  refine Context.forall_ofList fun e he => ?_
  obtain ⟨given, hgiven, hofDatum⟩ := exists_of_mem_wrapAll hvalues he
  obtain ⟨v, hv, w, hsay, hw⟩ | hd := exists_or_of_mem_given hwrap hnamed hes hgiven
  · rw [hw] at hofDatum
    obtain rfl : w = e.2 := Except.ok.inj hofDatum
    exact hsaid v hv _ hsay
  · exact hmade given.2 e.2 hd hofDatum

end Registry

/-! ## The context of a column -/

/-- **Contexts.**  Facts about a column and auxiliary values from JSON that are not nested too deep make a context.  It
can be listed exactly when what the variables say about the column can be shown. -/
theorem Registry.exists_build_eq_ok (registry : Registry) (logger : String) {metricsByDefault : Bool}
    {source : ColumnSource} {input : BuildInput} {facts : ColumnFacts} {es : List (Datum × Datum)}
    (hwrap : ∀ v ∈ registry.toList, v.IsWrapping)
    (hfacts : ColumnFacts.gather metricsByDefault source input = .ok facts)
    (hentries : auxiliaryEntries input.auxiliary = .ok es) (hes : Record.AreTexts (Datum.FitsJson maxDepth) es) :
    ∃ context, (registry.build metricsByDefault logger source input).1 = .ok context ∧
      ((∃ shown, context.displayValues = .ok shown) ↔ ∀ v ∈ registry.toList, v.Shows facts) := by
  obtain ⟨named, hnamed⟩ := hes.exists_isNamed
  have hwrapped : ∃ values, wrapAll (registry.sayings facts ++ registry.unreserved named) = .ok values := by
    refine exists_wrapAll_eq_ok fun e he => ?_
    obtain ⟨_, _, w, _, hw⟩ | hfits := exists_or_of_mem_given hwrap hnamed hes he
    · exact ⟨w, by rw [hw]; rfl⟩
    · obtain ⟨w, hw, _⟩ := Value.exists_ofDatum_eq_ok hfits.1
      exact ⟨w, hw⟩
  obtain ⟨values, hvalues⟩ := hwrapped
  refine ⟨Context.ofList values,
    build_eq_ok_iff.mpr ⟨facts, es, named, values, hfacts, hentries, hnamed, hvalues, rfl⟩, ?_⟩
  rw [Context.exists_displayValues_eq_ok_iff]
  constructor
  · intro hshown v hv w hw
    obtain ⟨w', hw', hget⟩ :=
      (merges_ofList hvalues).own v hv (.value w) (Variable.said?_eq_some_iff.mpr hw)
    obtain rfl : w = w' := Except.ok.inj hw'
    obtain ⟨e, he, rfl⟩ := Option.map_eq_some_iff.mp hget
    exact hshown e (List.mem_of_find?_eq_some he)
  · intro hshows
    refine forall_ofList_of_wrapAll hwrap hnamed hes hvalues hshows fun d w hd hw => ?_
    obtain ⟨w', hw', hshown⟩ := Value.exists_ofDatum_eq_ok hd.1
    obtain rfl : w' = w := Except.ok.inj (hw'.symm.trans hw)
    exact hshown hd.2

/-- When the variables say wrapped values and the auxiliary values come from JSON, all values of the
context are wrapped. -/
theorem Registry.isWrapped_of_build_eq_ok {registry : Registry} {metricsByDefault : Bool}
    {logger : String} {source : ColumnSource} {input : BuildInput} {context : Context}
    (h : (registry.build metricsByDefault logger source input).1 = .ok context)
    (hwrap : ∀ v ∈ registry.toList, v.IsWrapping)
    (hsaid : ∀ facts, ColumnFacts.gather metricsByDefault source input = .ok facts →
      ∀ v ∈ registry.toList, v.SaysWrapped facts)
    (hes : ∀ es, auxiliaryEntries input.auxiliary = .ok es → Record.AreJson es) : context.IsWrapped := by
  obtain ⟨facts, es, named, values, hfacts, hentries, hnamed, hvalues, rfl⟩ := build_eq_ok_iff.mp h
  exact forall_ofList_of_wrapAll hwrap hnamed (hes es hentries) hvalues (hsaid facts hfacts)
    fun d w => Value.isWrapped_of_isJson

end ColumnLabel
