import ColumnLabel.Condition.Holds
import ColumnLabel.Proofs.Json.Unambiguous

/-!
# ColumnLabel.Proofs.Value.Identified

Records and lists that are known by their text.

A record or a list made from texts, integers, truth values and `null` is shown and compared as compact JSON, and no
other one has that text.  So a condition that compares with a literal is met by one of them at most
(`eq_of_asText_eq`).
-/

namespace ColumnLabel

namespace Value

/-- A record or a list of exact data. -/
inductive IsExact : Value → Prop where
  | record {r : Record} (h : (Datum.record r).IsExact) : IsExact (.record r)
  | list {items : List Datum} (h : (Datum.list items).IsExact) : IsExact (.list items)

theorem IsExact.isExact_raw {v : Value} (h : v.IsExact) : v.raw.IsExact := by
  cases h with
  | record h => exact h
  | list h => exact h

/-- Among records and lists the datum inside tells which value it is. -/
theorem IsExact.eq_of_raw_eq {v w : Value} (hv : v.IsExact) (hw : w.IsExact) (h : v.raw = w.raw) : v = w := by
  cases hv with
  | record =>
      cases hw with
      | record => rw [Datum.record.inj h]
      | list => cases h
  | list =>
      cases hw with
      | record => cases h
      | list => rw [Datum.list.inj h]

/-- A record or a list is shown, and compared, as the JSON text of the datum inside. -/
theorem IsExact.display_eq {v : Value} (h : v.IsExact) :
    v.display = (do return .text (String.ofList (← Json.write v.raw))) ∧ v.asText = v.display := by
  cases h with
  | record =>
      refine ⟨?_, rfl⟩
      rw [display, raw, Json.write, Json.writeWithin, Json.writeRecord]
  | list => exact ⟨rfl, rfl⟩

theorem IsExact.asText_eq_ok_iff {v : Value} (h : v.IsExact) {s : String} :
    v.asText = .ok (.text s) ↔ Json.write v.raw = .ok s.toList := by
  rw [h.display_eq.2, h.display_eq.1, bind_eq_ok_iff]
  simp only [pure_eq_ok_iff, Datum.text.injEq]
  constructor
  · intro hwritten
    obtain ⟨cs, hcs, rfl⟩ := hwritten
    rw [hcs, String.toList_ofList]
  · intro hwritten
    exact ⟨s.toList, hwritten, String.ofList_toList⟩

/-- It has a text unless it is nested too deep. -/
theorem IsExact.exists_asText_eq_ok_iff {v : Value} (h : v.IsExact) :
    (∃ s, v.asText = .ok (.text s)) ↔ v.raw.depth ≤ maxDepth := by
  rw [← Json.exists_writeWithin_eq_ok_iff h.isExact_raw.isJson maxDepth]
  simp only [h.asText_eq_ok_iff]
  constructor
  · intro htext
    obtain ⟨s, hs⟩ := htext
    exact ⟨s.toList, hs⟩
  · intro hwritten
    obtain ⟨cs, hcs⟩ := hwritten
    exact ⟨String.ofList cs, by rw [String.toList_ofList]; exact hcs⟩

end Value

/-- A value that meets a comparison with a literal has the literal as its text. -/
theorem Context.asText_eq_of_satisfies {c : Context} {logger condition name literal : String} {v : Value}
    (hread : Condition.read condition = .equals name literal) (hget : c.get? name = some v)
    (h : (c.satisfies logger condition).1 = true) : v.asText = .ok (.text literal) := by
  rw [satisfies, hread, Condition.check, hget, Option.getD_some] at h
  cases htext : v.asText with
  | error fault =>
      rw [htext] at h
      contradiction
  | ok d =>
      rw [htext] at h
      cases d with
      | text s => rw [of_decide_eq_true h]
      | _ => contradiction

namespace Value

/-- Records and lists of exact data that are compared as one text are one value. -/
theorem IsExact.eq_of_asText_eq_text {v w : Value} (hv : v.IsExact) (hw : w.IsExact) {s : String}
    (hvText : v.asText = .ok (.text s)) (hwText : w.asText = .ok (.text s)) : v = w :=
  hv.eq_of_raw_eq hw <| Json.eq_of_write_eq hv.isExact_raw hw.isExact_raw (hv.asText_eq_ok_iff.mp hvText)
    (hw.asText_eq_ok_iff.mp hwText)

end Value

end ColumnLabel
