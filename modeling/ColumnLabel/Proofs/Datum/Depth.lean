import ColumnLabel.Datum.Basic
import ColumnLabel.Proofs.Steps

/-!
# ColumnLabel.Proofs.Datum.Depth

How deep data is nested, and the room that is left inside it.

Some data go down as many levels as the deepest of them (`depthOfItems_le_iff`, `depthOfEntries_le_iff`).  Who takes
some levels of the room goes on with what is left, or gives up for want of room (`failsOnly_takeRoom_bind`).
-/

namespace ColumnLabel

/-! ## Levels -/

/-- Some data fit into the room that each of them fits into. -/
theorem depthOfItems_le_iff {items : List Datum} {room : Nat} :
    depthOfItems items ≤ room ↔ ∀ d ∈ items, d.depth ≤ room := by
  induction items with
  | nil => simp [depthOfItems]
  | cons d items ih => rw [depthOfItems, Nat.max_le, ih, List.forall_mem_cons]

/-- So do some entries. -/
theorem depthOfEntries_le_iff {es : List (Datum × Datum)} {room : Nat} :
    depthOfEntries es ≤ room ↔ ∀ e ∈ es, e.1.depth ≤ room ∧ e.2.depth ≤ room := by
  induction es with
  | nil => simp [depthOfEntries]
  | cons e es ih => rw [depthOfEntries, Nat.max_le, Nat.max_le, ih, List.forall_mem_cons]

theorem Datum.depth_text (s : String) : (Datum.text s).depth = 0 := by simp [Datum.depth]

theorem Datum.depth_list (items : List Datum) : (Datum.list items).depth = depthOfItems items + 1 := by
  rw [Datum.depth]

theorem Datum.depth_entries (es : List (Datum × Datum)) :
    (Datum.record (.entries es)).depth = depthOfEntries es + 1 := by
  rw [Datum.depth, Record.depth]

/-! ## Room -/

theorem takeRoom_of_le {levels room : Nat} (h : levels ≤ room) (doing : String) :
    takeRoom levels room doing = .ok (room - levels) := if_pos h

theorem takeRoom_of_lt {levels room : Nat} (h : room < levels) (doing : String) :
    takeRoom levels room doing = .error (.tooDeep doing) := if_neg (Nat.not_le.mpr h)

/-- What `n` levels are enough for takes one more behind a level that is taken. -/
theorem exists_takeRoom_one_bind_eq_ok_iff {β : Type} {room n : Nat} {doing : String} {f : Nat → Except Fault β}
    (h : ∀ left, (∃ b, f left = .ok b) ↔ n ≤ left) :
    (∃ b, takeRoom 1 room doing >>= f = .ok b) ↔ n + 1 ≤ room := by
  cases room with
  | zero => simp [takeRoom]
  | succ left => simp [takeRoom, h]

/-- Who takes levels gives up where there are not so many, and else for the reasons that are met in what is left. -/
theorem failsOnly_takeRoom_bind {β : Type} {P : Fault → Prop} {levels room : Nat} {doing : String}
    {f : Nat → Except Fault β} (hdeep : room < levels → P (.tooDeep doing))
    (hleft : levels ≤ room → FailsOnly P (f (room - levels))) :
    FailsOnly P (takeRoom levels room doing >>= f) := by
  by_cases h : levels ≤ room
  · rw [takeRoom_of_le h]
    exact hleft h
  · rw [takeRoom_of_lt (Nat.lt_of_not_le h)]
    exact failsOnly_error (hdeep (Nat.lt_of_not_le h))

/-- A step gives up for want of room. -/
def LacksRoom {α : Type} (x : Except Fault α) : Prop := ∃ doing, x = .error (.tooDeep doing)

section

variable {α β : Type}

/-- So it gives up whatever comes behind it. -/
theorem LacksRoom.bind {x : Except Fault α} (h : LacksRoom x) (f : α → Except Fault β) : LacksRoom (x >>= f) := by
  obtain ⟨doing, rfl⟩ := h
  exact ⟨doing, rfl⟩

/-- Who takes levels gives up if what is left is not enough. -/
theorem lacksRoom_takeRoom_bind {levels room : Nat} {doing : String} {f : Nat → Except Fault β}
    (h : levels ≤ room → LacksRoom (f (room - levels))) : LacksRoom (takeRoom levels room doing >>= f) := by
  by_cases hroom : levels ≤ room
  · rw [takeRoom_of_le hroom]
    exact h hroom
  · rw [takeRoom_of_lt (Nat.lt_of_not_le hroom)]
    exact ⟨doing, rfl⟩

end

end ColumnLabel
