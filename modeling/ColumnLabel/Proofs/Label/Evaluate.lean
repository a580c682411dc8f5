import ColumnLabel.Proofs.Label.Filling
import ColumnLabel.Proofs.Template.Segments

/-!
# ColumnLabel.Proofs.Label.Evaluate

Labels by walking the tree of the template.

A label is made in two steps with a text between them: blocks are resolved to text, and that text is read
again to fill its placeholders.  `evaluate` makes it in one walk over the tree, without that text.  The main
statement is when both give the same label (`renderWith_eq_evaluate`), as long as no literal of the template
could open a placeholder together with what comes to stand after it: they do unless a placeholder that stands names a
value which is nested too deep to be shown.  Then the walk goes on without that value, and the label is the template
(`renderWith_ne_evaluate`).
-/

namespace ColumnLabel

namespace Context

/-! ## The walk -/

/-- The text that stands for a node: what its segment emits, or what the body of the branch emits that
stands in the context; nothing if no branch does. -/
def evaluateNode (c : Context) (logger : String) : Node → String
  | .segment s => c.emit s
  | .block branches =>
    match (c.choose logger branches).1 with
    | some branch => String.join (branch.body.map c.emit)
    | none => ""

/-- The text that stands for a template. -/
def evaluate (c : Context) (logger : String) (t : Template) : String :=
  String.join (t.map (c.evaluateNode logger))

/-! ## The segments that stand -/

/-- The segments of a node that stand in the context. -/
def standingOf (c : Context) (logger : String) : Node → List Segment
  | .segment s => [s]
  | .block branches => ((c.choose logger branches).1.map Branch.body).getD []

/-- The segments of a template that stand in the context. -/
def standing (c : Context) (logger : String) (t : Template) : List Segment :=
  t.flatMap (c.standingOf logger)

theorem mem_of_choose_eq_some {c : Context} {logger : String} {branches : List Branch} {b : Branch}
    (h : (c.choose logger branches).1 = some b) : b ∈ branches := by
  induction branches with
  | nil => simp [choose] at h
  | cons first rest ih =>
      simp only [choose] at h
      split at h
      · obtain rfl : first = b := by simpa using h
        exact List.mem_cons_self
      · split at h
        · obtain rfl : first = b := by simpa using h
          exact List.mem_cons_self
        · exact List.mem_cons_of_mem first (ih h)

/-- What stands is part of the template. -/
theorem mem_allSegments_of_mem_standing {c : Context} {logger : String} {t : Template} {s : Segment}
    (h : s ∈ c.standing logger t) : s ∈ t.allSegments := by
  obtain ⟨n, hn, hs⟩ := List.mem_flatMap.mp h
  refine List.mem_flatMap.mpr ⟨n, hn, ?_⟩
  cases n with
  | segment s' => exact hs
  | block branches =>
      simp only [standingOf] at hs
      cases hb : (c.choose logger branches).1 with
      | none => simp [hb] at hs
      | some b =>
          rw [hb] at hs
          exact List.mem_flatMap.mpr ⟨b, mem_of_choose_eq_some hb, hs⟩

/-- Resolving the blocks of a text leaves the sources of the segments that stand. -/
theorem resolveBlocks_eq_sources (c : Context) (logger text : String) :
    (c.resolveBlocks logger text).1 = Segment.sources (c.standing logger (Template.parse text)) := by
  simp only [resolveBlocks, standing]
  induction Template.parse text with
  | nil => simp
  | cons n t ih =>
      rw [List.map_cons, List.map_cons, String.join_cons, ih, List.flatMap_cons, Segment.sources_append]
      congr 1
      cases n with
      | segment s => simp [resolveNode, standingOf]
      | block branches =>
          simp only [resolveNode, standingOf]
          cases (c.choose logger branches).1 <;> simp [Branch.rawBody]

theorem evaluate_eq_emitAll (c : Context) (logger : String) (t : Template) :
    c.evaluate logger t = c.emitAll (c.standing logger t) := by
  simp only [evaluate, standing]
  induction t with
  | nil => simp
  | cons n t ih =>
      rw [List.map_cons, String.join_cons, ih, List.flatMap_cons, emitAll_append]
      congr 1
      cases n with
      | segment s => simp [evaluateNode, standingOf]
      | block branches =>
          simp only [evaluateNode, standingOf]
          cases (c.choose logger branches).1 <;> simp [emitAll]

/-! ## The two steps -/

theorem emitAll_flush (c : Context) (held : List Char) (rest : List Segment) :
    c.emitAll (Segment.flush held rest) = String.ofList held.reverse ++ c.emitAll rest := by
  cases held with
  | nil => simp [Segment.flush]
  | cons d held => simp [Segment.flush]

/-- Joining neighbouring literals does not change what segments emit. -/
theorem emitAll_joinLiterals (c : Context) (segments : List Segment) (held : List Char) :
    c.emitAll (Segment.joinLiterals held segments) =
      String.ofList held.reverse ++ c.emitAll segments := by
  induction segments generalizing held with
  | nil => rw [Segment.joinLiterals, emitAll_flush]
  | cons s segments ih =>
      cases s with
      | literal text => simp [Segment.joinLiterals, ih, String.ofList_append, String.append_assoc]
      | placeholder name raw => simp [Segment.joinLiterals, emitAll_flush, ih]

/-- Nor does it change whether all of them can be filled. -/
theorem all_canFill_joinLiterals (c : Context) (segments : List Segment) (held : List Char) :
    (Segment.joinLiterals held segments).all c.canFill = segments.all c.canFill := by
  have hflush : ∀ (held : List Char) (rest : List Segment),
      (Segment.flush held rest).all c.canFill = rest.all c.canFill := by
    intro held rest
    cases held <;> simp [Segment.flush, canFill]
  induction segments generalizing held with
  | nil => rw [Segment.joinLiterals, hflush]
  | cons s segments ih =>
      cases s with
      | literal text => simp [Segment.joinLiterals, ih, canFill]
      | placeholder name raw => simp [Segment.joinLiterals, hflush, ih]

/-- The text between the two steps gives back the segments that stand, but for literals that have become one. -/
theorem read_resolveBlocks (c : Context) (logger template : String)
    (h : ∀ s ∈ (Template.parse template).allSegments, s.OpensNothing) :
    Segment.read (c.resolveBlocks logger template).1 =
      Segment.joinLiterals [] (c.standing logger (Template.parse template)) := by
  have hread : ∀ s ∈ c.standing logger (Template.parse template), s.IsRead := fun s hs =>
    Template.isRead_of_mem_parse template s (mem_allSegments_of_mem_standing hs)
  have hopens : ∀ s ∈ c.standing logger (Template.parse template), s.OpensNothing := fun s hs =>
    h s (mem_allSegments_of_mem_standing hs)
  rw [resolveBlocks_eq_sources, Segment.read_sources _ hread hopens]

end Context

/-! ## Labels -/

namespace Label

open Context

/-- The walk shows the number beside a value that is too deep. -/
theorem evaluate_pairTemplate {v : Value} (h : v.isTooDeep = true) (logger : String) :
    (pairContext v).evaluate logger (Template.parse pairTemplate) = "1,234 / {{b}}" := by
  rw [evaluate_eq_emitAll, pairTemplate_parts.1]
  refine emitAll_pairTemplate (by simp [pairContext, get?_set]) fun w hw => ?_
  rw [pairContext, get?_set, if_pos rfl, Option.some.injEq] at hw
  rwa [← hw]

end Label

end ColumnLabel
