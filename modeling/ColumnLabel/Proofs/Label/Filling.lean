import ColumnLabel.Label.Render
import ColumnLabel.Proofs.Context.Wrapped
import ColumnLabel.Proofs.Value.Hidden

/-!
# ColumnLabel.Proofs.Label.Filling

What stands in a label for each segment of a text.

`emit` says it for one segment: the text that its value shows, or its own source.  In a context of wrapped
values the label of a template is what the segments of the branch-resolved text emit, one after the other
(`renderWith_eq_emitAll`), as long as all of them can be filled.  One cannot where it names a value that is nested too
deep to be shown, and then the template stands in for its label (`renderWith_eq_template`): beside such a value not even
a number is shown (`renderWith_pairTemplate`).
-/

namespace ColumnLabel

namespace Context

/-- Is what a context has for a name nested too deep to be shown? -/
def isTooDeep (c : Context) (name : String) : Bool := (c.get? name).any Value.isTooDeep

/-- Can a segment be filled, if only with its own source? -/
def canFill (c : Context) : Segment → Bool
  | .literal _ => true
  | .placeholder name _ => !c.isTooDeep name

/-! ## One segment -/

/-- The text that stands for a segment: of a placeholder the text that its value shows, and its source
where there is no value or the value cannot be shown. -/
def emit (c : Context) : Segment → String
  | .literal text => text
  | .placeholder name raw =>
    match (c.get? name).map Value.display with
    | some (.ok (.text shown)) => shown
    | _ => raw

/-- The text that stands for segments one after the other. -/
def emitAll (c : Context) (segments : List Segment) : String := String.join (segments.map c.emit)

@[simp] theorem emit_literal (c : Context) (text : String) : c.emit (.literal text) = text := rfl

@[simp] theorem emitAll_nil (c : Context) : c.emitAll [] = "" := by simp [emitAll]

@[simp] theorem emitAll_cons (c : Context) (s : Segment) (segments : List Segment) :
    c.emitAll (s :: segments) = c.emit s ++ c.emitAll segments := by
  simp [emitAll, String.join_cons]

@[simp] theorem emitAll_append (c : Context) (ss ts : List Segment) :
    c.emitAll (ss ++ ts) = c.emitAll ss ++ c.emitAll ts := by
  induction ss with
  | nil => simp
  | cons s ss ih => simp [ih, String.append_assoc]

/-! ## Filling a text -/

/-- With wrapped values every piece of a label is a text: whatever keeps a value from being shown lies in its
data, and then the source of the placeholder stands. -/
theorem IsWrapped.fillSegment_eq {c : Context} (hc : c.IsWrapped) {s : Segment} (h : c.canFill s = true) :
    c.fillSegment s = .ok (.text (c.emit s)) := by
  cases s with
  | literal text => rfl
  | placeholder name raw =>
      cases hv : c.get? name with
      | none => simp [fillSegment, emit, hv]
      | some v =>
          cases hd : v.display with
          | error fault =>
              have hdeep : v.isTooDeep = false := by simpa [canFill, isTooDeep, hv] using h
              have hdata := (Value.preventsWriting_of_display_eq_error hdeep hd).liesInData
              simp [fillSegment, emit, hv, hd, hdata]
          | ok d =>
              obtain ⟨shown, rfl⟩ := (hc.get? hv).display_eq_text hd
              simp [fillSegment, emit, hv, hd]

/-- A placeholder that cannot be filled names a value with more levels than there is room for. -/
theorem exists_maxDepth_lt_depth {c : Context} {s : Segment} (h : c.canFill s = false) :
    ∃ name raw v, s = .placeholder name raw ∧ c.get? name = some v ∧ maxDepth < v.depth := by
  cases s with
  | literal text => contradiction
  | placeholder name raw =>
      simp only [canFill, Bool.not_eq_false', isTooDeep, Option.any_eq_true] at h
      obtain ⟨v, hv, hdeep⟩ := h
      exact ⟨name, raw, v, rfl, hv, Value.maxDepth_lt_depth hdeep⟩

/-- This is no fault of the data. -/
theorem exists_fillSegment_eq_error {c : Context} {s : Segment} (h : c.canFill s = false) :
    ∃ doing, c.fillSegment s = .error (.tooDeep doing) := by
  cases s with
  | literal text => contradiction
  | placeholder name raw =>
      simp only [canFill, Bool.not_eq_false', isTooDeep, Option.any_eq_true] at h
      obtain ⟨v, hv, hdeep⟩ := h
      obtain ⟨doing, hdoing⟩ := Value.isTooDeep_iff.mp hdeep
      exact ⟨doing, by simp [fillSegment, hv, hdoing, Fault.liesInData]⟩

theorem joinPieces_map_text (texts : List String) (index : Nat) :
    joinPieces index (texts.map .text) = .ok (String.join texts) := by
  induction texts generalizing index with
  | nil => simp [joinPieces]
  | cons s texts ih => simp [joinPieces, ih, String.join_cons, pure, Except.pure, bind, Except.bind]

/-- Where a text stands for every segment, these texts one after the other are the filled text. -/
theorem fill_eq_join {c : Context} {text : String} {shown : Segment → String}
    (h : ∀ s ∈ Segment.read text, c.fillSegment s = .ok (.text (shown s))) :
    c.fill text = .ok (String.join ((Segment.read text).map shown)) := by
  have hpieces : (Segment.read text).mapM c.fillSegment =
      .ok (((Segment.read text).map shown).map .text) := by
    rw [List.map_map]
    exact mapM_eq_ok_map h
  rw [fill, hpieces, ok_bind, joinPieces_map_text]

/-- With wrapped values a text is filled when all its segments can be. -/
theorem IsWrapped.fill_eq {c : Context} (hc : c.IsWrapped) {text : String}
    (h : (Segment.read text).all c.canFill = true) : c.fill text = .ok (c.emitAll (Segment.read text)) :=
  fill_eq_join fun s hs => hc.fillSegment_eq (List.all_eq_true.mp h s hs)

/-- One that cannot be filled leaves the whole text unfilled. -/
theorem IsWrapped.exists_fill_eq_error {c : Context} (hc : c.IsWrapped) {text : String}
    (h : (Segment.read text).all c.canFill = false) : ∃ doing, c.fill text = .error (.tooDeep doing) := by
  obtain ⟨s, hs, hdeep⟩ := List.all_eq_false.mp h
  obtain ⟨doing, hdoing⟩ := exists_fillSegment_eq_error (Bool.eq_false_iff.mpr hdeep)
  obtain ⟨s, -, fault, hfault, hpieces⟩ := exists_mapM_eq_error ⟨s, hs, _, hdoing⟩
  cases hfill : c.canFill s with
  | true =>
      rw [hc.fillSegment_eq hfill] at hfault
      contradiction
  | false =>
      obtain ⟨doing, hdoing⟩ := exists_fillSegment_eq_error hfill
      obtain rfl := Except.error.inj (hfault.symm.trans hdoing)
      exact ⟨doing, by rw [fill, hpieces, error_bind]⟩

end Context

/-! ## Loggers -/

namespace Context

/-- Which branch stands does not depend on who is told about it. -/
theorem choose_fst_eq (c : Context) (logger logger' : String) (branches : List Branch) :
    (c.choose logger branches).1 = (c.choose logger' branches).1 := by
  induction branches with
  | nil => rfl
  | cons branch branches ih =>
      cases hcondition : branch.condition with
      | none => simp [choose, hcondition]
      | some condition =>
          have hholds : (c.satisfies logger condition).1 = (c.satisfies logger' condition).1 := by
            rw [satisfies, satisfies]
            cases (Condition.read condition).check c <;> rfl
          simp only [choose, hcondition, hholds]
          split
          · rfl
          · exact ih

/-- Nor does the text with its blocks resolved. -/
theorem resolveBlocks_fst_eq (c : Context) (logger logger' template : String) :
    (c.resolveBlocks logger template).1 = (c.resolveBlocks logger' template).1 := by
  simp only [resolveBlocks, List.map_map]
  congr 1
  refine List.map_congr_left fun n _ => ?_
  cases n with
  | segment s => rfl
  | block branches =>
      have hchoose := c.choose_fst_eq logger logger' branches
      simp only [Function.comp_apply, resolveNode, hchoose]

end Context

/-! ## Labels -/

namespace Label

theorem resolveBlocks_empty (c : Context) (logger : String) : (c.resolveBlocks logger "").1 = "" := by
  simp [Context.resolveBlocks, Template.parse, Template.ofTokens, Token.lex, Token.scan, Token.flush,
    Template.outside, Template.segments, Segment.readChars, Segment.scan, Segment.flush]

/-- With wrapped values the label of a template is what the segments of its branch-resolved text emit, if all of these
can be filled. -/
theorem renderWith_eq_emitAll {c : Context} (hc : c.IsWrapped) {logger template : String}
    (h : (Segment.read (c.resolveBlocks logger template).1).all c.canFill = true) :
    (renderWith logger (.text template) (.ok c)).1 =
      c.emitAll (Segment.read (c.resolveBlocks logger template).1) := by
  by_cases ht : template = ""
  · rw [ht, resolveBlocks_empty]
    simp [renderWith, template?, Segment.read, Segment.readChars, Segment.scan, Segment.flush]
  · simp [renderWith, template?, ht, renderIn, hc.fill_eq h]

/-- If one of them cannot, it is the template itself. -/
theorem renderWith_eq_template {c : Context} (hc : c.IsWrapped) {logger template : String}
    (h : (Segment.read (c.resolveBlocks logger template).1).all c.canFill = false) :
    (renderWith logger (.text template) (.ok c)).1 = template := by
  obtain ⟨doing, hfill⟩ := hc.exists_fill_eq_error h
  by_cases ht : template = ""
  · simp [renderWith, template?, ht]
  · simp [renderWith, template?, ht, renderIn, hfill]

/-- The label does not depend on who is told about it. -/
theorem renderWith_fst_eq (c : Context) (logger logger' template : String) :
    (renderWith logger (.text template) (.ok c)).1 = (renderWith logger' (.text template) (.ok c)).1 := by
  by_cases ht : template = ""
  · simp [renderWith, template?, ht]
  · simp only [renderWith, template?, ht, renderIn, c.resolveBlocks_fst_eq logger logger', String.isEmpty_iff, if_false]
    split <;> rfl

/-! ## A number and a value that is too deep -/

/-- A template for a number and one more value. -/
def pairTemplate : String := "{{a}} / {{b}}"

/-- The context of the two. -/
def pairContext (v : Value) : Context := (Context.empty.set "a" (.number (.int 1234))).set "b" v

theorem isWrapped_pairContext {v : Value} (h : v.IsWrapped) : (pairContext v).IsWrapped :=
  (Context.isWrapped_empty.set "a" (Value.isWrapped_int 1234)).set "b" h

/-- The parts of the template. -/
theorem pairTemplate_parts :
    Template.parse pairTemplate =
        [.segment (.placeholder "a" "{{a}}"), .segment (.literal " / "), .segment (.placeholder "b" "{{b}}")] ∧
      Segment.read pairTemplate = [.placeholder "a" "{{a}}", .literal " / ", .placeholder "b" "{{b}}"] := by
  decide

theorem display_pairNumber : (Value.number (.int 1234)).display = .ok (.text "1,234") := by
  have htext : (Number.display (.int 1234)).toOption = some "1,234".toList := by decide +kernel
  rw [Value.display, toOption_eq_some_iff.mp htext]
  rfl

/-- The template has no blocks, so it is what is filled. -/
theorem read_resolveBlocks_pairTemplate (c : Context) (logger : String) :
    Segment.read (c.resolveBlocks logger pairTemplate).1 =
      [.placeholder "a" "{{a}}", .literal " / ", .placeholder "b" "{{b}}"] := by
  obtain ⟨hparse, hread⟩ := pairTemplate_parts
  have hbranched : (c.resolveBlocks logger pairTemplate).1 = pairTemplate := by
    rw [Context.resolveBlocks, hparse]
    rfl
  rw [hbranched, hread]

/-- A context that has the number, but nothing that can be shown for the other name, gives the number alone. -/
theorem emitAll_pairTemplate {c : Context} (hnumber : c.get? "a" = some (.number (.int 1234)))
    (hvalue : ∀ v, c.get? "b" = some v → v.isTooDeep = true) :
    c.emitAll [.placeholder "a" "{{a}}", .literal " / ", .placeholder "b" "{{b}}"] = "1,234 / {{b}}" := by
  have hfirst : c.emit (.placeholder "a" "{{a}}") = "1,234" := by
    simp only [Context.emit, hnumber, Option.map_some, display_pairNumber]
  have hsecond : c.emit (.placeholder "b" "{{b}}") = "{{b}}" := by
    cases hv : c.get? "b" with
    | none => simp [Context.emit, hv]
    | some v =>
        obtain ⟨doing, hdoing⟩ := Value.isTooDeep_iff.mp (hvalue v hv)
        simp [Context.emit, hv, hdoing]
  simp [hfirst, hsecond]

/-- If the other value is too deep to be shown, the number is not shown either. -/
theorem renderWith_pairTemplate {v : Value} (hv : v.IsWrapped) (h : v.isTooDeep = true) (logger : String) :
    (renderWith logger (.text pairTemplate) (.ok (pairContext v))).1 = pairTemplate := by
  refine renderWith_eq_template (isWrapped_pairContext hv) ?_
  rw [read_resolveBlocks_pairTemplate]
  simp [Context.canFill, Context.isTooDeep, pairContext, Context.get?_set, h]

end Label

end ColumnLabel
