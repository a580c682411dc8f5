import ColumnLabel.Proofs.Template.Segments
import ColumnLabel.Proofs.Text.Marks

/-!
# ColumnLabel.Proofs.Template.PlaceholderPlaces

The places of the placeholders of a text.

Reading finds exactly the `{{` and `}}` that belong together with more than blanks between them, from left to right
(`mem_placeholderPlaces_iff`, `pairwise_placeholderPlaces`).  What is left between the placeholders is one literal each
(`isChain_scan`).
-/

namespace ColumnLabel

open Text

/-- A placeholder of a text, with the places at which its two marks start. -/
structure PlaceholderPlace where
  name : String
  raw : String
  opening : Nat
  closing : Nat
  deriving DecidableEq, Repr

namespace Segment

variable {text : String} {p : PlaceholderPlace}

/-- The places of the marks of a segment that starts at some place, if it is a placeholder. -/
def placeholderPlace? : Nat × Segment → Option PlaceholderPlace
  | (_, .literal _) => none
  | (i, .placeholder name raw) => some ⟨name, raw, i, i + (raw.length - 2)⟩

/-- The placeholders of a text at their places, in order. -/
def placeholderPlaces (text : String) : List PlaceholderPlace :=
  (placed (fun s => s.source.toList) 0 (read text)).filterMap placeholderPlace?

theorem mem_placeholderPlaces_iff_mem_placed : p ∈ placeholderPlaces text ↔
    (p.opening, placeholder p.name p.raw) ∈ placed (fun s => s.source.toList) 0 (read text) ∧
      p.closing = p.opening + (p.raw.length - 2) := by
  rw [placeholderPlaces, List.mem_filterMap]
  constructor
  · intro h
    obtain ⟨⟨i, s⟩, hplaced, hplace⟩ := h
    cases s with
    | literal text => contradiction
    | placeholder name raw =>
        obtain rfl := Option.some.inj hplace
        exact ⟨hplaced, rfl⟩
  · intro h
    obtain ⟨hplaced, hclosing⟩ := h
    exact ⟨_, hplaced, by rw [placeholderPlace?, ← hclosing]⟩

/-- Every placeholder has a place. -/
theorem exists_place_of_mem_read {name raw : String} (h : placeholder name raw ∈ read text) :
    ∃ p ∈ placeholderPlaces text, p.name = name := by
  obtain ⟨i, hplaced⟩ := exists_mem_placed h (fun s => s.source.toList) 0
  exact ⟨⟨name, raw, i, i + (raw.length - 2)⟩, mem_placeholderPlaces_iff_mem_placed.mpr ⟨hplaced, rfl⟩, rfl⟩

/-! ## Placeholders and the text around them -/

theorem toList_sources (segments : List Segment) :
    (sources segments).toList = segments.flatMap fun s => s.source.toList := by
  induction segments with
  | nil => simp
  | cons s segments ih => simp [ih]

/-- Where a placeholder is among the segments it parts the text, and where a text that can be read as one parts the
text it is among the segments. -/
theorem mem_placed_read_iff {i : Nat} {name raw : String} :
    (i, placeholder name raw) ∈ placed (fun s => s.source.toList) 0 (read text) ↔
      ∃ before after, text.toList = before ++ (raw.toList ++ after) ∧ i = before.length ∧
        (placeholder name raw).IsRead := by
  rw [mem_placed_iff]
  constructor
  · intro h
    obtain ⟨before, after, hread, rfl⟩ := h
    have hmem : placeholder name raw ∈ read text := by simp [hread]
    have hsources := congrArg String.toList (sources_read text)
    rw [hread, sources_append, sources_cons, source_placeholder, String.toList_append, String.toList_append] at hsources
    refine ⟨(sources before).toList, (sources after).toList, hsources.symm, ?_, isRead_of_mem_readChars _ _ hmem⟩
    rw [toList_sources, Nat.zero_add]
  · intro h
    obtain ⟨before, after, htext, rfl, hraw⟩ := h
    have hparts : text = String.ofList before ++ (raw ++ String.ofList after) := by
      rw [← String.toList_inj]
      simp [htext]
    refine ⟨read (String.ofList before), read (String.ofList after), ?_, ?_⟩
    · rw [hparts, read_append_placeholder hraw]
    · rw [← toList_sources, sources_read, String.toList_ofList, Nat.zero_add]

/-- The placeholders of a text, each at the place where it parts the text. -/
theorem mem_placeholderPlaces_iff_exists_eq : p ∈ placeholderPlaces text ↔ ∃ before inner after,
    text.toList = before ++ (['{', '{'] ++ (inner ++ (['}', '}'] ++ after))) ∧ p.opening = before.length ∧
      p.closing = p.opening + 2 + inner.length ∧ IsInner inner ∧ trim inner ≠ [] ∧
      p.name = String.ofList (trim inner) ∧
      p.raw = String.ofList (['{', '{'] ++ (inner ++ ['}', '}'])) := by
  rw [mem_placeholderPlaces_iff_mem_placed, mem_placed_read_iff]
  constructor
  · intro h
    obtain ⟨⟨before, after, htext, hopening, inner, hinner, hne, hname, hraw⟩, hclosing⟩ := h
    rw [hraw] at htext hclosing
    simp only [String.length_ofList, List.length_cons, List.length_append, List.length_nil] at hclosing
    exact ⟨before, inner, after, by simpa using htext, hopening, by omega, hinner, hne, hname, hraw⟩
  · intro h
    obtain ⟨before, inner, after, htext, hopening, hclosing, hinner, hne, hname, hraw⟩ := h
    refine ⟨⟨before, after, ?_, hopening, inner, hinner, hne, hname, hraw⟩, ?_⟩
    · simpa [hraw] using htext
    · simp only [hraw, String.length_ofList, List.length_append, List.length_cons, List.length_nil]
      omega

/-- **The placeholders of a text** are the marks that belong together with more than blanks between them. -/
theorem mem_placeholderPlaces_iff : p ∈ placeholderPlaces text ↔
    IsInnermost ['{', '{'] ['}', '}'] text.toList p.opening p.closing ∧
      trim (text.toList.extract (p.opening + 2) p.closing) ≠ [] ∧
      p.name = String.ofList (trim (text.toList.extract (p.opening + 2) p.closing)) ∧
      p.raw = String.ofList (text.toList.extract p.opening (p.closing + 2)) := by
  -- what stands between the marks, and what stands there with them
  have hextract {before inner after : List Char}
      (h : text.toList = before ++ (['{', '{'] ++ (inner ++ (['}', '}'] ++ after)))) :
      text.toList.extract (before.length + 2) (before.length + 2 + inner.length) = inner ∧
        text.toList.extract before.length (before.length + 2 + inner.length + 2) =
          ['{', '{'] ++ (inner ++ ['}', '}']) :=
    ⟨h ▸ extract_between ['{', '{'] ['}', '}'] before inner after,
      extract_of_eq before after (by simp [h]) rfl (by simp; omega)⟩
  rw [mem_placeholderPlaces_iff_exists_eq]
  constructor
  · intro h
    obtain ⟨before, inner, after, htext, hopening, hclosing, hinner, hread⟩ := h
    obtain ⟨hbetween, hwith⟩ := hextract htext
    rw [hclosing, hopening, hbetween, hwith]
    exact ⟨(isInnermost_iff (by simp) (by simp)).mpr
      ⟨before, inner, after, htext, rfl, rfl, hinner.no_open, hinner.no_close⟩, hread⟩
  · intro h
    obtain ⟨hinnermost, hread⟩ := h
    obtain ⟨before, inner, after, htext, hopening, hclosing, hopen, hclose⟩ :=
      (isInnermost_iff (by simp) (by simp)).mp hinnermost
    obtain ⟨hbetween, hwith⟩ := hextract htext
    rw [List.length_cons, List.length_singleton] at hclosing
    rw [hclosing, hopening, hbetween, hwith] at hread
    exact ⟨before, inner, after, htext, hopening, hclosing, ⟨hopen, hclose⟩, hread⟩

/-- Each placeholder ends in front of the placeholders behind it. -/
theorem pairwise_placeholderPlaces (text : String) :
    (placeholderPlaces text).Pairwise fun p q => p.closing + 2 ≤ q.opening := by
  refine List.pairwise_filterMap.mpr ((pairwise_placed _ 0 (read text)).imp_of_mem ?_)
  intro s t hs _ hle p hp q hq
  obtain ⟨i, s⟩ := s
  obtain ⟨j, t⟩ := t
  cases s with
  | literal text => contradiction
  | placeholder name raw =>
      cases t with
      | literal text => contradiction
      | placeholder name' raw' =>
          obtain rfl := Option.some.inj hp
          obtain rfl := Option.some.inj hq
          obtain ⟨_, _, _, _, inner, _, _, _, rfl⟩ := mem_placed_read_iff.mp hs
          simp only [source_placeholder, String.toList_ofList, String.length_ofList, List.length_cons,
            List.length_append, List.length_nil] at hle ⊢
          omega

/-! ## Literals -/

/-- One of two segments is a placeholder. -/
def IsParted (s t : Segment) : Prop := s.name?.isSome ∨ t.name?.isSome

theorem isChain_flush_nil (held : List Char) : (flush held []).IsChain IsParted := by
  cases held with
  | nil => exact .nil
  | cons c held => exact .singleton _

theorem isChain_flush_placeholder {rest : List Segment} (h : rest.IsChain IsParted) (held : List Char)
    (name raw : String) : (flush held (placeholder name raw :: rest)).IsChain IsParted := by
  have hrest : (placeholder name raw :: rest).IsChain IsParted := by
    cases rest with
    | nil => exact .singleton _
    | cons s rest => exact .cons_cons (.inl rfl) h
  cases held with
  | nil => exact hrest
  | cons c held => exact .cons_cons (.inr rfl) hrest

/-- No literal stands next to another one: where the scan lets go of a literal, a placeholder or the end follows. -/
theorem isChain_scan (held : List Char) (inner : Option (List Char)) (cs : List Char) :
    (scan held inner cs).IsChain IsParted := by
  fun_induction scan held inner cs with
  | case1 held => exact isChain_flush_nil held
  | case2 held inner => exact isChain_flush_nil _
  | case6 held inner cs hname ih => exact isChain_flush_placeholder ih held _ _
  | _ => assumption

end Segment

end ColumnLabel
