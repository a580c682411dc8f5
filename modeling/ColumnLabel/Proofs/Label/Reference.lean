import ColumnLabel.Proofs.Context.Restricted
import ColumnLabel.Proofs.Label.Independence

/-!
# ColumnLabel.Proofs.Label.Reference

The names that a template refers to.

Rendering looks up the names in the conditions of the template and those of the placeholders that stand once
its blocks are resolved.  Two contexts that agree on these make the same label, and report the same on the way
(`renderWith_congr`): they first choose the same branches, so the same text is filled, and then fill it alike.
-/

namespace ColumnLabel

namespace Context

/-- The names that a context is asked for by a template: those in its conditions, and those of the placeholders
of the text with its blocks resolved. -/
def asked (c : Context) (logger template : String) : List String :=
  (Template.parse template).conditionNames ++
    (Segment.read (c.resolveBlocks logger template).1).filterMap Segment.name?

variable {c c' : Context}

/-! ## Filling -/

theorem fillSegment_congr {s : Segment} (h : ∀ name, s.name? = some name → c.get? name = c'.get? name) :
    c.fillSegment s = c'.fillSegment s := by
  cases s with
  | literal text => rfl
  | placeholder name raw =>
      have hname : c.get? name = c'.get? name := h name rfl
      simp only [fillSegment, hname]

theorem warnSegment?_congr {s : Segment} (logger : String)
    (h : ∀ name, s.name? = some name → c.get? name = c'.get? name) :
    c.warnSegment? logger s = c'.warnSegment? logger s := by
  cases s with
  | literal text => rfl
  | placeholder name raw =>
      have hname : c.get? name = c'.get? name := h name rfl
      simp only [warnSegment?, hname]

theorem forall_name?_of_names {P : String → Prop} {segments : List Segment}
    (h : ∀ name ∈ segments.filterMap Segment.name?, P name) :
    ∀ s ∈ segments, ∀ name, s.name? = some name → P name :=
  fun s hs name hname => h name (List.mem_filterMap.mpr ⟨s, hs, hname⟩)

/-- Filling a text depends on the names of its placeholders. -/
theorem fill_congr {text : String}
    (h : ∀ name ∈ (Segment.read text).filterMap Segment.name?, c.get? name = c'.get? name) :
    c.fill text = c'.fill text := by
  have hsegments := forall_name?_of_names h
  have hpieces : (Segment.read text).mapM c.fillSegment = (Segment.read text).mapM c'.fillSegment := by
    generalize Segment.read text = segments at hsegments
    induction segments with
    | nil => rfl
    | cons s segments ih =>
        obtain ⟨hs, hrest⟩ := List.forall_mem_cons.mp hsegments
        rw [List.mapM_cons, List.mapM_cons, fillSegment_congr hs, ih hrest]
  rw [fill, fill, hpieces]

/-- So do the warnings. -/
theorem fillWarnings_congr {text : String} (logger : String)
    (h : ∀ name ∈ (Segment.read text).filterMap Segment.name?, c.get? name = c'.get? name) :
    c.fillWarnings logger text = c'.fillWarnings logger text := by
  have hsegments := forall_name?_of_names h
  rw [fillWarnings, fillWarnings]
  generalize Segment.read text = segments at hsegments
  induction segments with
  | nil => rfl
  | cons s segments ih =>
      obtain ⟨hs, hrest⟩ := List.forall_mem_cons.mp hsegments
      rw [List.takeWhile_cons, List.takeWhile_cons, fillSegment_congr hs]
      split
      · rw [List.filterMap_cons, List.filterMap_cons, warnSegment?_congr logger hs, ih hrest]
      · rfl

end Context

/-! ## Labels -/

namespace Label

open Context

variable {c : Context} {logger template : String}

/-- A context makes a label of any template but the empty one, of which there is nothing to make. -/
theorem renderWith_text (logger template : String) (c : Context) :
    renderWith logger (.text template) (.ok c) =
      if template = "" then ("", []) else renderIn logger template c := by
  by_cases ht : template = ""
  · simp [renderWith, template?, ht]
  · simp [renderWith, template?, ht]

/-- Contexts that agree on what one of them is asked for make the same label. -/
theorem renderIn_congr {c' : Context} (h : ∀ name ∈ c.asked logger template, c.get? name = c'.get? name) :
    renderIn logger template c = renderIn logger template c' := by
  have hconditions : ∀ name ∈ (Template.parse template).conditionNames, c.get? name = c'.get? name :=
    fun name hname => h name (List.mem_append_left _ hname)
  have hplaceholders : ∀ name ∈ (Segment.read (c.resolveBlocks logger template).1).filterMap Segment.name?,
      c.get? name = c'.get? name := fun name hname => h name (List.mem_append_right _ hname)
  have hblocks : c.resolveBlocks logger template = c'.resolveBlocks logger template :=
    resolveBlocks_congr logger template hconditions
  simp only [renderIn, fill_congr hplaceholders, fillWarnings_congr logger hplaceholders]
  rw [hblocks]

theorem renderIn_set {name : String} (h : name ∉ c.asked logger template) (value : Value) :
    renderIn logger template (c.set name value) = renderIn logger template c := by
  refine (renderIn_congr fun other hother => ?_).symm
  have hne : ¬ name = other := fun heq => h (heq ▸ hother)
  rw [get?_set, if_neg hne]

theorem renderIn_without {name : String} (h : name ∉ c.asked logger template) :
    renderIn logger template (c.without name) = renderIn logger template c := by
  refine (renderIn_congr fun other hother => ?_).symm
  have hne : ¬ name = other := fun heq => h (heq ▸ hother)
  rw [get?_without, if_neg hne]

/-- **References.**  The label, and what is reported on the way, depend on the values of the names that the
template asks for, and on nothing else.  So no other name makes a difference, whether it is set to any value
or left out. -/
theorem renderWith_congr (logger template : String) (c : Context) :
    (∀ c' : Context, (∀ name ∈ c.asked logger template, c.get? name = c'.get? name) →
      renderWith logger (.text template) (.ok c) = renderWith logger (.text template) (.ok c')) ∧
    ∀ name, name ∉ c.asked logger template →
      (∀ value, renderWith logger (.text template) (.ok (c.set name value)) =
        renderWith logger (.text template) (.ok c)) ∧
      renderWith logger (.text template) (.ok (c.without name)) =
        renderWith logger (.text template) (.ok c) := by
  refine ⟨fun c' h => ?_, fun name hname => ⟨fun value => ?_, ?_⟩⟩
  · rw [renderWith_text, renderWith_text, renderIn_congr h]
  · rw [renderWith_text, renderWith_text, renderIn_set hname]
  · rw [renderWith_text, renderWith_text, renderIn_without hname]

/-- The other context has no value for a name of the branch that does not stand, another one for a name that a
referenced one is the start of, and one more that cannot be shown. -/
theorem renderWith_congr_similar_names :
    let template := "{% if a > 1 %}{{ab}}{% else %}{{abc}}{% endif %}, {{ abcd }}"
    let c := Context.ofList [("a", .number (.int 2)), ("ab", .text "x"), ("abc", .bool true)]
    let c' := Context.ofList [("ab", .text "x"), ("a", .number (.int 2)), ("abcde", .list [.endless])]
    (∀ name ∈ c.asked "labels" template, c.get? name = c'.get? name) ∧
      renderWith "labels" (.text template) (.ok c) = renderWith "labels" (.text template) (.ok c') ∧
      (renderWith "labels" (.text template) (.ok c')).1 = "x, {{ abcd }}" ∧
      "abc" ∉ c.asked "labels" template ∧
      renderWith "labels" (.text template) (.ok (c.set "abc" (.list [.endless]))) =
        renderWith "labels" (.text template) (.ok c) := by
  intro template c c'
  have hasked : c.asked "labels" template = ["a", "ab", "abcd"] := by decide +kernel
  have hagree : ∀ name ∈ c.asked "labels" template, c.get? name = c'.get? name := by
    rw [hasked]
    intro name hname
    simp only [List.mem_cons, List.not_mem_nil, or_false] at hname
    obtain rfl | rfl | rfl := hname <;> rfl
  have habc : "abc" ∉ c.asked "labels" template := by
    rw [hasked]
    decide
  obtain ⟨hcongr, hother⟩ := renderWith_congr "labels" template c
  exact ⟨hagree, hcongr c' hagree, by decide +kernel, habc, (hother "abc" habc).1 _⟩

end Label

end ColumnLabel
