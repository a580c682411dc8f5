import ColumnLabel.Proofs.Label.Filling
import ColumnLabel.Proofs.Template.Segments

/-!
# ColumnLabel.Proofs.Label.Unresolved

Which placeholders are found open in a label.

A placeholder without a value is left as it is, so it is found again when the label is read.  It stays
apart from what stands around it: what is found between two such placeholders is what is found in the text
between them, by itself (`unresolved_emitAll_append`).  Hence the open placeholders of the segments are all
found, in their order.  Whatever else is found was put together from the texts of values, and there is nothing
else exactly when no run of segments between open placeholders gives such a text (`unresolved_emitAll_eq_iff`).
-/

namespace ColumnLabel.Context

variable {c : Context}

/-- A placeholder whose name has no value. -/
def isOpen (c : Context) (s : Segment) : Bool := s.name?.any fun name => !c.contains name

/-- The names of the open placeholders among segments, in order. -/
def openNames (c : Context) (segments : List Segment) : List String :=
  segments.filterMap fun s => s.name?.filter fun name => !c.contains name

theorem openNames_append (c : Context) (ss ts : List Segment) :
    c.openNames (ss ++ ts) = c.openNames ss ++ c.openNames ts := List.filterMap_append

theorem openNames_cons (c : Context) (s : Segment) (ss : List Segment) :
    c.openNames (s :: ss) = c.openNames [s] ++ c.openNames ss := openNames_append c [s] ss

theorem openNames_eq_nil {ss : List Segment} (h : ∀ s ∈ ss, c.isOpen s = false) :
    c.openNames ss = [] := by
  refine List.filterMap_eq_nil_iff.mpr fun s hs => ?_
  have hclosed := h s hs
  cases s with
  | literal text => rfl
  | placeholder name raw => simpa [isOpen, Segment.name?] using hclosed

/-- An open placeholder emits its source. -/
theorem exists_eq_placeholder_of_isOpen {s : Segment} (h : c.isOpen s = true) :
    ∃ name raw, s = .placeholder name raw ∧ c.openNames [s] = [name] ∧ c.emit s = raw := by
  cases s with
  | literal text => contradiction
  | placeholder name raw =>
      have hnone : c.get? name = none := by simpa [isOpen, Segment.name?, contains] using h
      have hnames : c.openNames [.placeholder name raw] = [name] := by
        rw [openNames, List.filterMap_cons_some, List.filterMap_nil]
        simp [Segment.name?, contains, hnone]
      exact ⟨name, raw, rfl, hnames, by simp [emit, hnone]⟩

/-- An open placeholder is found in the label, and parts what is found before it from what is found after
it. -/
theorem unresolved_emitAll_append {s : Segment} (hread : s.IsRead) (hopen : c.isOpen s = true)
    (before after : List Segment) :
    c.unresolved (c.emitAll (before ++ s :: after)) =
      c.unresolved (c.emitAll before) ++ c.openNames [s] ++ c.unresolved (c.emitAll after) := by
  obtain ⟨name, raw, rfl, _, hemit⟩ := exists_eq_placeholder_of_isOpen hopen
  have hparts := Segment.read_append_placeholder hread (c.emitAll before) (c.emitAll after)
  rw [emitAll_append, emitAll_cons, hemit]
  show c.openNames (Segment.read _) = c.openNames _ ++ c.openNames _ ++ c.openNames _
  rw [hparts, openNames_append, openNames_cons, List.append_assoc]

theorem append_names_eq_iff {front names found own : List String} (h : own.Sublist found) :
    front ++ (names ++ found) = names ++ own ↔ front = [] ∧ found = own := by
  constructor
  · intro heq
    have hlength : front.length + (names.length + found.length) = names.length + own.length := by
      simpa using congrArg List.length heq
    have hle : own.length ≤ found.length := h.length_le
    have hfront : front = [] := List.eq_nil_of_length_eq_zero (by omega)
    rw [hfront, List.nil_append] at heq
    exact ⟨hfront, List.append_cancel_left heq⟩
  · intro hparts
    rw [hparts.1, hparts.2, List.nil_append]

/-- What is found in a label, with segments in front that are not open.  Induction on the segments behind
them; those in front grow up to the next open one. -/
theorem unresolved_emitAll_of_front (front segments : List Segment)
    (hfront : ∀ s ∈ front, c.isOpen s = false) (hread : ∀ s ∈ segments, s.IsRead) :
    (c.openNames segments).Sublist (c.unresolved (c.emitAll (front ++ segments))) ∧
      (c.unresolved (c.emitAll (front ++ segments)) = c.openNames segments ↔
        ∀ run ∈ (front ++ segments).splitOnP c.isOpen, c.unresolved (c.emitAll run) = []) := by
  induction segments generalizing front with
  | nil =>
      rw [List.append_nil, List.splitOnP_eq_singleton hfront, List.forall_mem_singleton]
      exact ⟨List.nil_sublist _, Iff.rfl⟩
  | cons s segments ih =>
      obtain ⟨hs, hrest⟩ := List.forall_mem_cons.mp hread
      by_cases hopen : c.isOpen s = true
      · have hstep := ih [] (by simp) hrest
        rw [List.nil_append] at hstep
        obtain ⟨hsub, heq⟩ := hstep
        have hparts := unresolved_emitAll_append hs hopen front segments
        have hruns := List.splitOnP_append_cons_of_forall_mem hfront s hopen segments
        rw [hparts, hruns, openNames_cons, List.append_assoc, List.forall_mem_cons, ← heq]
        exact ⟨(hsub.append_left _).trans (List.sublist_append_right _ _), append_names_eq_iff hsub⟩
      · have hclosed : c.isOpen s = false := Bool.eq_false_iff.mpr hopen
        have hfront' : ∀ t ∈ front ++ [s], c.isOpen t = false := by
          rw [List.forall_mem_append, List.forall_mem_singleton]
          exact ⟨hfront, hclosed⟩
        have hnames : c.openNames (s :: segments) = c.openNames segments := by
          rw [openNames_cons, openNames_eq_nil (List.forall_mem_singleton.mpr hclosed), List.nil_append]
        have hstep := ih (front ++ [s]) hfront' hrest
        rw [hnames]
        rwa [List.append_assoc, List.singleton_append] at hstep

/-- **Open placeholders.**  In a label the open placeholders of its segments are found in their order, and
nothing else is found exactly when the text between them, by itself, leaves nothing open. -/
theorem unresolved_emitAll_eq_iff {segments : List Segment} (hread : ∀ s ∈ segments, s.IsRead) :
    (c.openNames segments).Sublist (c.unresolved (c.emitAll segments)) ∧
      (c.unresolved (c.emitAll segments) = c.openNames segments ↔
        ∀ run ∈ segments.splitOnP c.isOpen, c.unresolved (c.emitAll run) = []) :=
  unresolved_emitAll_of_front [] segments (by simp) hread

end ColumnLabel.Context
