import ColumnLabel.Proofs.Label.Filling
import ColumnLabel.Proofs.Template.PlaceholderPlaces

/-!
# ColumnLabel.Proofs.Label.Unfilled

Texts that filling leaves as they are.

Reading a text loses nothing of it and finds just its placeholders (`mem_placeholderPlaces_iff_isInnermost`), so where
none of these has a value the text comes back unchanged (`fill_eq_self`).
-/

namespace ColumnLabel

open Text

namespace Context

variable {c : Context} {text : String}

/-- A segment that asks for nothing the context has stands as it was written. -/
theorem fillSegment_eq_source {s : Segment} (h : ∀ name ∈ s.name?, c.contains name = false) :
    c.fillSegment s = .ok (.text s.source) := by
  cases s with
  | literal text => rfl
  | placeholder name raw =>
      have hnone : c.get? name = none := by simpa [contains] using h name rfl
      simp [fillSegment, hnone]

/-- Nor is anything reported about it. -/
theorem warnSegment?_eq_none {s : Segment} (h : ∀ name ∈ s.name?, c.contains name = false) (logger : String) :
    c.warnSegment? logger s = none := by
  cases s with
  | literal text => rfl
  | placeholder name raw =>
      have hnone : c.get? name = none := by simpa [contains] using h name rfl
      simp [warnSegment?, hnone]

/-- A text that asks for nothing the context has is filled with nothing. -/
theorem fill_eq_self (h : ∀ p ∈ Segment.placeholderPlaces text, c.contains p.name = false) (logger : String) :
    c.fill text = .ok text ∧ c.fillWarnings logger text = [] := by
  have hnames : ∀ s ∈ Segment.read text, ∀ name ∈ s.name?, c.contains name = false := by
    intro s hs name hname
    cases s with
    | literal text => contradiction
    | placeholder name' raw =>
        obtain rfl := Option.mem_some.mp hname
        obtain ⟨p, hp, rfl⟩ := Segment.exists_place_of_mem_read hs
        exact h p hp
  constructor
  · rw [fill_eq_join fun s hs => fillSegment_eq_source (hnames s hs)]
    exact congrArg Except.ok (Segment.sources_read text)
  · rw [fillWarnings, List.filterMap_eq_nil_iff]
    intro s hs
    exact warnSegment?_eq_none (hnames s ((List.takeWhile_prefix _).subset hs)) logger

end Context

namespace Segment

/-- **Reading is exact**: the segments of a text make up the text, no literal is empty and none stands next to another
one.  The placeholders are, from left to right, all the marks that belong together with more than blanks between them,
and the name of each is what stands there without the blanks around it.  So a text comes back unchanged from a context
that has none of these names. -/
theorem mem_placeholderPlaces_iff_isInnermost (text : String) :
    sources (read text) = text ∧ literal "" ∉ read text ∧ (read text).IsChain IsParted ∧
      (∀ p : PlaceholderPlace, p ∈ placeholderPlaces text ↔
        IsInnermost ['{', '{'] ['}', '}'] text.toList p.opening p.closing ∧
          trim (text.toList.extract (p.opening + 2) p.closing) ≠ [] ∧
          p.name = String.ofList (trim (text.toList.extract (p.opening + 2) p.closing)) ∧
          p.raw = String.ofList (text.toList.extract p.opening (p.closing + 2))) ∧
      (placeholderPlaces text).Pairwise (fun p q => p.closing + 2 ≤ q.opening) ∧
      ∀ c : Context, (∀ p ∈ placeholderPlaces text, c.contains p.name = false) →
        c.fill text = .ok text ∧ ∀ logger, c.fillWarnings logger text = [] := by
  refine ⟨sources_read text, fun hmem => ?_, isChain_scan [] none text.toList,
    fun p => mem_placeholderPlaces_iff, pairwise_placeholderPlaces text, fun c hc => ?_⟩
  · exact isRead_of_mem_readChars text.toList _ hmem rfl
  · exact ⟨(Context.fill_eq_self hc "").1, fun logger => (Context.fill_eq_self hc logger).2⟩

/-- Runs of braces in front of a placeholder and behind it, a blank one, and marks that stay open. -/
theorem mem_placeholderPlaces_iff_isInnermost_brace_runs :
    let text := "\x7b\x7b \x7b\x7b\x7b a \x7d\x7d\x7d \x7b\x7b \x7d\x7d\x7b\x7bb\x7d\x7d\x7b\x7b"
    let c := Context.empty.set "a b" (.text "{{b}}")
    placeholderPlaces text = [⟨"a", "{{ a }}", 4, 9⟩, ⟨"b", "{{b}}", 18, 21⟩] ∧
      (∀ p ∈ placeholderPlaces text, c.contains p.name = false) ∧ c.fill text = .ok text := by
  intro text c
  have hplaces : placeholderPlaces text = [⟨"a", "{{ a }}", 4, 9⟩, ⟨"b", "{{b}}", 18, 21⟩] := by
    decide
  have hnames : ∀ p ∈ placeholderPlaces text, c.contains p.name = false := by
    rw [hplaces]
    decide
  obtain ⟨_, _, _, _, _, hfill⟩ := mem_placeholderPlaces_iff_isInnermost text
  exact ⟨hplaces, hnames, (hfill c hnames).1⟩

end Segment

end ColumnLabel
