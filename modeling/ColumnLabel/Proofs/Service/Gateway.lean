import ColumnLabel.Proofs.Json.Unambiguous
import ColumnLabel.Proofs.Service.Request
import ColumnLabel.Service.Answer

/-!
# ColumnLabel.Proofs.Service.Gateway

What the service relies on in the gateway before it.

Which requests a gateway takes, and how it puts answers on their way, is its own affair.  All that the service needs
is that a request for a label was made from JSON, that a small answer made from texts and integers arrives as it is,
and that a failure arrives as a failure (`Gateway.IsSound`).  Behind such a gateway the answer to a request for a
label or a name is what the service makes of it.
-/

namespace ColumnLabel.Service

/-! ## Small answers -/

/-- Exact data in so many levels. -/
def IsSmall (levels : Nat) (d : Datum) : Prop := d.IsExact ∧ d.depth ≤ levels

theorem isSmall_text (levels : Nat) (s : String) : IsSmall levels (.text s) :=
  ⟨.text s, by simp [Datum.depth]⟩

theorem isSmall_texts (ss : List String) : IsSmall 1 (.list (ss.map .text)) := by
  refine ⟨.list fun d hd => ?_, ?_⟩
  · obtain ⟨s, _, rfl⟩ := List.mem_map.mp hd
    exact .text s
  · rw [Datum.depth_list, Nat.add_le_add_iff_right, depthOfItems_le_iff]
    intro d hd
    obtain ⟨s, _, rfl⟩ := List.mem_map.mp hd
    exact Nat.le_of_eq (Datum.depth_text s)

/-- An object takes one level more than its fields. -/
theorem isSmall_fields {levels : Nat} {fs : List (String × Datum)} (h : ∀ f ∈ fs, IsSmall levels f.2) :
    IsSmall (levels + 1) (fields fs) := by
  have hentry : ∀ e ∈ fs.map (fun f => (Datum.text f.1, f.2)), (∃ s, e.1 = .text s) ∧ IsSmall levels e.2 := by
    intro e he
    obtain ⟨f, hf, rfl⟩ := List.mem_map.mp he
    exact ⟨⟨f.1, rfl⟩, h f hf⟩
  refine ⟨.record (fun e he => (hentry e he).1) (fun e he => (hentry e he).2.1), ?_⟩
  rw [fields, Datum.depth_entries, Nat.add_le_add_iff_right, depthOfEntries_le_iff]
  intro e he
  obtain ⟨⟨s, hs⟩, hvalue⟩ := hentry e he
  rw [hs, Datum.depth_text]
  exact ⟨Nat.zero_le levels, hvalue.2⟩

theorem IsSmall.mono {levels levels' : Nat} {d : Datum} (h : IsSmall levels d) (hle : levels ≤ levels') :
    IsSmall levels' d := ⟨h.1, Nat.le_trans h.2 hle⟩

/-! ## Gateways -/

/-- What the service relies on: requests for labels are made from JSON, answers of two levels of exact data are
delivered as they are, and so are failures. -/
structure Gateway.IsSound (gateway : Gateway) : Prop where
  isJson {method reference : String} {body : Option ByteArray} {request : RenderRequest} :
    gateway.take method reference body = .render request → request.IsJson
  deliver_ok (status : Nat) {body : Datum} :
    IsSmall 2 body → gateway.deliver (.ok status body) = .ok status body
  deliver_failed : gateway.deliver .failed = .failed

section

variable {gateway : Gateway} {method reference : String} {body : Option ByteArray}

/-- A request for a name is answered with what the service makes of it. -/
theorem Gateway.IsSound.answer_transform (h : gateway.IsSound) (metricsByDefault : Bool) {name : String}
    (htake : gateway.take method reference body = .transform name) :
    gateway.answer metricsByDefault method reference body = transform name := by
  rw [Gateway.answer, htake, respond, transform]
  split
  · exact h.deliver_ok 400 ((isSmall_fields (by simp [isSmall_text])).mono (Nat.le_succ 1))
  · split
    · exact h.deliver_ok 200 ((isSmall_fields (by simp [isSmall_text])).mono (Nat.le_succ 1))
    · exact h.deliver_failed

end

end ColumnLabel.Service
