import ColumnLabel.Proofs.Context.Named
import Mathlib.Data.List.Nodup

/-!
# ColumnLabel.Proofs.Context.Restricted

Contexts of which only some named values are kept.  A name has its value still if that is kept, and else none
(`get?_filter`).
-/

namespace ColumnLabel.Context

/-- The named values that pass a test. -/
def filter (c : Context) (keep : String × Value → Bool) : Context where
  entries := c.entries.filter keep
  nodup := c.nodup.sublist (List.filter_sublist.map _)

/-- The context without a name. -/
def without (c : Context) (name : String) : Context := c.filter fun e => e.1 != name

variable {c : Context}

theorem mem_entries_of_get? {name : String} {v : Value} (h : c.get? name = some v) :
    (name, v) ∈ c.entries := by
  obtain ⟨e, he, rfl⟩ := Option.map_eq_some_iff.mp h
  have hname : e.1 = name := by simpa using List.find?_some he
  rw [← hname]
  exact List.mem_of_find?_eq_some he

/-- No name occurs twice, so each entry gives the value of its name. -/
theorem get?_eq_some_iff {name : String} {v : Value} : c.get? name = some v ↔ (name, v) ∈ c.entries := by
  constructor
  · exact mem_entries_of_get?
  · intro hv
    cases hget : c.get? name with
    | none => exact absurd (List.mem_map_of_mem hv) (get?_eq_none_iff.mp hget)
    | some w =>
        have heq : (name, w) = (name, v) :=
          List.inj_on_of_nodup_map c.nodup (mem_entries_of_get? hget) hv rfl
        rw [(Prod.mk.inj heq).2]

theorem get?_filter (c : Context) (keep : String × Value → Bool) (name : String) :
    (c.filter keep).get? name = (c.get? name).filter fun v => keep (name, v) := by
  refine Option.ext fun v => ?_
  rw [get?_eq_some_iff, Option.filter_eq_some_iff, get?_eq_some_iff]
  exact List.mem_filter

theorem get?_without (c : Context) (name other : String) :
    (c.without name).get? other = if name = other then none else c.get? other := by
  rw [without, get?_filter]
  by_cases hname : name = other
  · simp [hname]
  · have hne : (other != name) = true := by simpa using Ne.symm hname
    rw [if_neg hname]
    simp only [hne]
    cases c.get? other <;> rfl

theorem IsWrapped.filter (hc : c.IsWrapped) (keep : String × Value → Bool) : (c.filter keep).IsWrapped :=
  fun e he => hc e (List.mem_filter.mp he).1

end ColumnLabel.Context
