import ColumnLabel.Label.Render
import ColumnLabel.Proofs.Datum.Depth

/-!
# ColumnLabel.Proofs.Label.Reported

What is reported while a label is made.

Everything that happens on the way is told to the logger that was handed over, in notes that are no errors
(`Entry.IsNoteTo`).  The last word is either that the template was rendered, with the label that was made of it
(`IsRendered`), or the one error, and then the template is the label (`IsFallback`).  There is no last word, and
no label, only where the error would have to show a column that cannot be written
(`isReported_iff`).
-/

namespace ColumnLabel

/-! ## Notes -/

namespace Entry

/-- Does an entry say that a template was rendered? -/
def tellsRendering (e : Entry) : Bool := "Rendered '".toList.isPrefixOf e.message.toList

/-- An entry for a logger that neither is an error nor says that a template was rendered. -/
structure IsNoteTo (logger : String) (e : Entry) : Prop where
  logger_eq : e.logger = logger
  severity_ne : e.severity ≠ .error
  not_tells : e.tellsRendering = false

/-- A message that starts with another letter says something else. -/
theorem tellsRendering_eq_false {e : Entry} (h : e.message.toList.head? ≠ some 'R') :
    e.tellsRendering = false := by
  rw [tellsRendering, Bool.eq_false_iff]
  intro hprefix
  obtain ⟨rest, hrest⟩ := List.isPrefixOf_iff_prefix.mp hprefix
  rw [← hrest] at h
  exact h rfl

theorem isNoteTo {severity : Severity} (hseverity : severity ≠ .error) (logger : String) {message : String}
    (hmessage : message.toList.head? ≠ some 'R') : IsNoteTo logger ⟨severity, logger, message⟩ :=
  ⟨rfl, hseverity, tellsRendering_eq_false hmessage⟩

end Entry

namespace Registry

theorem notes_extractAll (logger : String) (facts : ColumnFacts) (vs : List Variable) :
    ∀ e ∈ (extractAll logger facts vs).2, e.IsNoteTo logger := by
  induction vs with
  | nil => simp [extractAll]
  | cons v vs ih =>
      cases hv : v.extract facts with
      | ok d? => cases d? <;> simpa only [extractAll, hv] using ih
      | error fault =>
          simp only [extractAll, hv, List.forall_mem_cons]
          exact ⟨Entry.isNoteTo (by decide) logger (by simp), ih⟩

theorem notes_auxiliaryValues (registry : Registry) (logger : String) (es : List (Datum × Datum)) :
    ∀ e ∈ (registry.auxiliaryValues logger es).2, e.IsNoteTo logger := by
  induction es with
  | nil => simp [auxiliaryValues]
  | cons entry es ih =>
      obtain ⟨key, d⟩ := entry
      cases hkey : key.plain with
      | error fault => simp [auxiliaryValues, hkey]
      | ok cs =>
          by_cases hreserved : registry.isReserved (String.ofList cs) = true
          · simp only [auxiliaryValues, hkey, hreserved, if_true, List.forall_mem_cons]
            exact ⟨Entry.isNoteTo (by decide) logger (by simp), ih⟩
          · cases hd : Value.ofDatum d with
            | error fault => simp [auxiliaryValues, hkey, hreserved, hd]
            | ok v => simpa [auxiliaryValues, hkey, hreserved, hd] using ih

/-- What is reported while a context is built are notes, whether or not it can be built. -/
theorem notes_build (registry : Registry) (metricsByDefault : Bool) (logger : String) (source : ColumnSource)
    (input : BuildInput) :
    ∀ e ∈ (registry.build metricsByDefault logger source input).2, e.IsNoteTo logger := by
  rw [build]
  cases ColumnFacts.gather metricsByDefault source input with
  | error fault => simp
  | ok facts =>
      have hwarnings := notes_extractAll logger facts registry.toList
      cases auxiliaryEntries input.auxiliary with
      | error fault => exact hwarnings
      | ok es => exact List.forall_mem_append.mpr ⟨hwarnings, registry.notes_auxiliaryValues logger es⟩

end Registry

namespace Context

theorem notes_satisfies (c : Context) (logger condition : String) :
    ∀ e ∈ (c.satisfies logger condition).2, e.IsNoteTo logger := by
  rw [satisfies]
  split
  · simp
  · rw [List.forall_mem_singleton]
    exact Entry.isNoteTo (by decide) logger (by simp)

theorem notes_choose (c : Context) (logger : String) (branches : List Branch) :
    ∀ e ∈ (c.choose logger branches).2, e.IsNoteTo logger := by
  induction branches with
  | nil => simp [choose]
  | cons branch branches ih =>
      cases hcondition : branch.condition with
      | none => simp [choose, hcondition]
      | some condition =>
          have hcheck := c.notes_satisfies logger condition
          simp only [choose, hcondition]
          split
          · exact hcheck
          · exact List.forall_mem_append.mpr ⟨hcheck, ih⟩

theorem notes_resolveBlocks (c : Context) (logger template : String) :
    ∀ e ∈ (c.resolveBlocks logger template).2, e.IsNoteTo logger := by
  intro e he
  simp only [resolveBlocks, List.mem_flatMap, List.mem_map] at he
  obtain ⟨_, ⟨n, _, rfl⟩, he⟩ := he
  cases n with
  | segment s => contradiction
  | block branches => exact c.notes_choose logger branches e he

theorem notes_fillWarnings (c : Context) (logger text : String) :
    ∀ e ∈ c.fillWarnings logger text, e.IsNoteTo logger := by
  intro e he
  obtain ⟨s, _, hs⟩ := List.mem_filterMap.mp he
  cases s with
  | literal text => contradiction
  | placeholder name raw =>
      rw [warnSegment?] at hs
      split at hs
      · contradiction
      · split at hs
        · contradiction
        · obtain rfl := Option.some.inj hs
          exact Entry.isNoteTo (by decide) logger (by simp)

end Context

/-! ## The last word -/

namespace Label

variable {logger template label : String} {entries : List Entry}

/-- The entry about a template that was rendered. -/
def renderedEntry (logger template label : String) : Entry :=
  ⟨.debug, logger, "Rendered '" ++ template ++ "' -> '" ++ label ++ "'"⟩

/-- The error about a column of which no context could be built. -/
def buildError (logger column : String) (fault : Fault) : Entry :=
  ⟨.error, logger, "Failed to build context for column " ++ column ++ ": " ++ fault.message⟩

/-- A label that was rendered: nothing is an error, and the last entry, alone of all, says what was rendered. -/
structure IsRendered (logger template label : String) (entries : List Entry) : Prop where
  logger_eq : ∀ e ∈ entries, e.logger = logger
  no_error : ∀ e ∈ entries, e.severity ≠ .error
  last : entries.getLast? = some (renderedEntry logger template label)
  once : entries.countP Entry.tellsRendering = 1

/-- A template that stands in for the label: there is one error, and nothing says that it was rendered. -/
structure IsFallback (logger template label : String) (entries : List Entry) : Prop where
  logger_eq : ∀ e ∈ entries, e.logger = logger
  label_eq : label = template
  one_error : entries.countP (·.severity = .error) = 1
  not_rendered : ∀ e ∈ entries, e.tellsRendering = false

/-- A label and what is reported about it: it was rendered, or the template stands in for it. -/
def IsReported (logger template label : String) (entries : List Entry) : Prop :=
  IsRendered logger template label entries ∨ IsFallback logger template label entries

theorem isRendered_of_notes (h : ∀ e ∈ entries, e.IsNoteTo logger) (template label : String) :
    IsRendered logger template label (entries ++ [renderedEntry logger template label]) where
  logger_eq := List.forall_mem_append.mpr ⟨fun e he => (h e he).logger_eq, by simp [renderedEntry]⟩
  no_error := List.forall_mem_append.mpr ⟨fun e he => (h e he).severity_ne, by simp [renderedEntry]; decide⟩
  last := by simp
  once := by
    have hnotes : entries.countP Entry.tellsRendering = 0 :=
      List.countP_eq_zero.mpr fun e he => by simp [(h e he).not_tells]
    have hlast : (renderedEntry logger template label).tellsRendering = true := by
      simp [Entry.tellsRendering, renderedEntry]
    rw [List.countP_append, hnotes, List.countP_singleton, if_pos hlast]

theorem isFallback_of_notes (h : ∀ e ∈ entries, e.IsNoteTo logger) (template : String) {message : String}
    (hmessage : message.toList.head? ≠ some 'R') :
    IsFallback logger template template (entries ++ [⟨.error, logger, message⟩]) where
  logger_eq := List.forall_mem_append.mpr ⟨fun e he => (h e he).logger_eq, by simp⟩
  label_eq := rfl
  one_error := by
    have hnotes : entries.countP (·.severity = .error) = 0 :=
      List.countP_eq_zero.mpr fun e he => by simp [(h e he).severity_ne]
    rw [List.countP_append, hnotes, List.countP_singleton, if_pos (by simp)]
  not_rendered := List.forall_mem_append.mpr ⟨fun e he => (h e he).not_tells,
    List.forall_mem_singleton.mpr (Entry.tellsRendering_eq_false hmessage)⟩

theorem isFallback_renderError (h : ∀ e ∈ entries, e.IsNoteTo logger) (template : String) (fault : Fault) :
    IsFallback logger template template (entries ++ [renderError logger template fault]) :=
  isFallback_of_notes h template (by simp)

/-- What a context reports about a template: notes, and then a last word. -/
theorem exists_renderIn_eq (logger template : String) (c : Context) :
    ∃ notes, (∀ e ∈ notes, Entry.IsNoteTo logger e) ∧
      ((∃ label, renderIn logger template c = (label, notes ++ [renderedEntry logger template label])) ∨
        ∃ fault, renderIn logger template c = (template, notes ++ [renderError logger template fault])) := by
  refine ⟨(c.resolveBlocks logger template).2 ++ c.fillWarnings logger (c.resolveBlocks logger template).1,
    List.forall_mem_append.mpr ⟨c.notes_resolveBlocks logger template, c.notes_fillWarnings logger _⟩, ?_⟩
  cases hfill : c.fill (c.resolveBlocks logger template).1 with
  | ok label => exact .inl ⟨label, by simp only [renderIn, hfill, renderedEntry]⟩
  | error fault => exact .inr ⟨fault, by simp only [renderIn, hfill]⟩

/-- It is one of the two kinds, also after notes that were made before. -/
theorem isReported_renderIn (logger template : String) (c : Context) {before : List Entry}
    (hbefore : ∀ e ∈ before, e.IsNoteTo logger) :
    IsReported logger template (renderIn logger template c).1 (before ++ (renderIn logger template c).2) := by
  obtain ⟨notes, hnotes, hresult⟩ := exists_renderIn_eq logger template c
  have hall : ∀ e ∈ before ++ notes, Entry.IsNoteTo logger e := List.forall_mem_append.mpr ⟨hbefore, hnotes⟩
  obtain ⟨label, heq⟩ | ⟨fault, heq⟩ := hresult
  · rw [heq, ← List.append_assoc]
    exact .inl (isRendered_of_notes hall template label)
  · rw [heq, ← List.append_assoc]
    exact .inr (isFallback_renderError hall template fault)

/-- So it is whatever is handed over as a context. -/
theorem isReported_renderWith (logger : String) (ht : template ≠ "") (context : Except Fault Context) :
    IsReported logger template (renderWith logger (.text template) context).1
      (renderWith logger (.text template) context).2 := by
  have hnone : ∀ e ∈ ([] : List Entry), e.IsNoteTo logger := List.forall_mem_nil _
  have htemplate : template? (.text template) = some template := by simp [template?, ht]
  cases context with
  | ok c =>
      have hreported := isReported_renderIn logger template c hnone
      rw [List.nil_append] at hreported
      simpa only [renderWith, htemplate] using hreported
  | error fault =>
      have hfallback := isFallback_renderError hnone template fault
      rw [List.nil_append] at hfallback
      simp only [renderWith, htemplate]
      exact .inr hfallback

variable {registry : Registry} {metricsByDefault : Bool} {source : ColumnSource} {input : BuildInput}

/-- Once there is a context, the label of a column is what the context makes of the template. -/
theorem exists_isReported_of_build_eq_ok (ht : template ≠ "") {c : Context}
    (h : (registry.build metricsByDefault logger source input).1 = .ok c) :
    ∃ label entries,
      renderColumn registry metricsByDefault logger (.text template) source input = .ok (label, entries) ∧
        IsReported logger template label entries := by
  have htemplate : template? (.text template) = some template := by simp [template?, ht]
  have hnotes := registry.notes_build metricsByDefault logger source input
  refine ⟨_, _, ?_, isReported_renderIn logger template c hnotes⟩
  simp only [renderColumn, htemplate, h]

/-- Without one it is the template, if the column can be written into the error. -/
theorem exists_isReported_of_build_eq_error (ht : template ≠ "") {fault : Fault}
    (h : (registry.build metricsByDefault logger source input).1 = .error fault) {cs : List Char}
    (hwritten : source.written = .ok cs) :
    ∃ label entries,
      renderColumn registry metricsByDefault logger (.text template) source input = .ok (label, entries) ∧
        IsReported logger template label entries := by
  have htemplate : template? (.text template) = some template := by simp [template?, ht]
  have hnotes := registry.notes_build metricsByDefault logger source input
  have hfallback : IsFallback logger template template
      ((registry.build metricsByDefault logger source input).2 ++
        [buildError logger (String.ofList cs) fault]) := isFallback_of_notes hnotes template (by simp)
  refine ⟨_, _, ?_, .inr hfallback⟩
  simp only [renderColumn, htemplate, h, hwritten, ok_bind]
  rfl

/-- If it cannot be written either, there is no label. -/
theorem renderColumn_eq_error (ht : template ≠ "") {fault : Fault}
    (h : (registry.build metricsByDefault logger source input).1 = .error fault) {fault' : Fault}
    (hwritten : source.written = .error fault') :
    renderColumn registry metricsByDefault logger (.text template) source input = .error fault' := by
  have htemplate : template? (.text template) = some template := by simp [template?, ht]
  simp only [renderColumn, htemplate, h, hwritten, error_bind]

end Label

/-! ## Columns that can be written -/

namespace Column

/-- A descriptor as it should be: two texts, a type that may be missing, and truth values. -/
structure IsTyped (c : Column) : Prop where
  label : ∃ s, c.label = .text s
  key : ∃ s, c.key = .text s
  dataType : c.dataType = .none ∨ ∃ s, c.dataType = .text s
  isNumeric : ∃ b, c.isNumeric = .bool b
  isMetric : ∃ b, c.isMetric = .bool b
  isPercentMetric : ∃ b, c.isPercentMetric = .bool b

theorem IsTyped.exists_written_eq_ok {c : Column} (h : c.IsTyped) : ∃ cs, c.written = .ok cs := by
  obtain ⟨label, hlabel⟩ := h.label
  obtain ⟨key, hkey⟩ := h.key
  obtain ⟨numeric, hnumeric⟩ := h.isNumeric
  obtain ⟨metric, hmetric⟩ := h.isMetric
  obtain ⟨percent, hpercent⟩ := h.isPercentMetric
  rw [written, hlabel, hkey, hnumeric, hmetric, hpercent]
  obtain hnone | ⟨dataType, htype⟩ := h.dataType
  · rw [hnone]
    exact ⟨_, rfl⟩
  · rw [htype]
    exact ⟨_, rfl⟩

end Column

namespace Label

/-- **Reports.**  Whatever is handed over as a context, what a label is made of is reported.  So it is for a column,
exactly if there is a context for it or it can be written into the error that there is none, as a descriptor of
texts and truth values always can. -/
theorem isReported_iff (logger : String) {template : String} (ht : template ≠ "") :
    (∀ context, IsReported logger template (renderWith logger (.text template) context).1
      (renderWith logger (.text template) context).2) ∧
    (∀ registry metricsByDefault source input,
      (∃ label entries,
        renderColumn registry metricsByDefault logger (.text template) source input = .ok (label, entries) ∧
          IsReported logger template label entries) ↔
      (∃ c, (registry.build metricsByDefault logger source input).1 = .ok c) ∨
        ∃ cs, source.written = .ok cs) ∧
    ∀ column : Column, column.IsTyped → ∃ cs, (ColumnSource.column column).written = .ok cs := by
  refine ⟨isReported_renderWith logger ht, fun registry metricsByDefault source input => ?_,
    fun column hcolumn => hcolumn.exists_written_eq_ok⟩
  cases hbuild : (registry.build metricsByDefault logger source input).1 with
  | ok c => exact iff_of_true (exists_isReported_of_build_eq_ok ht hbuild) (.inl ⟨c, rfl⟩)
  | error fault =>
      cases hwritten : source.written with
      | ok cs => exact iff_of_true (exists_isReported_of_build_eq_error ht hbuild hwritten) (.inr ⟨cs, rfl⟩)
      | error fault' => simp [renderColumn_eq_error ht hbuild hwritten]

/-- Without a column the template stands in for the label, and a value that cannot be shown is no more than a note. -/
theorem isReported_iff_without_column :
    let template := "{{a}} of {{b}}{% if b > 1 %}!{% endif %}"
    let c := Context.ofList [("a", .list [.endless]), ("b", .number (.int 2))]
    template ≠ "" ∧
      IsReported "labels" template (renderWith "labels" (.text template) (.ok c)).1
        (renderWith "labels" (.text template) (.ok c)).2 ∧
      (renderWith "labels" (.text template) (.ok c)).1 = "{{a}} of 2!" ∧
      ∃ label entries, renderColumn .builtIn false "labels" (.text template) (.stray .none) {} =
          .ok (label, entries) ∧ IsReported "labels" template label entries := by
  intro template c
  have ht : template ≠ "" := by decide
  obtain ⟨hrender, hcolumn, _⟩ := isReported_iff "labels" ht
  exact ⟨ht, hrender (.ok c), by decide +kernel, (hcolumn .builtIn false (.stray .none) {}).mpr (.inr ⟨_, rfl⟩)⟩

/-- A record is handed over as a column, and one of its entries is an integer with too many digits: there is neither a
label nor an error. -/
theorem renderColumn_unwritable_column :
    renderColumn .builtIn false "labels" (.text "{{a}}")
        (.stray (.record (.entries [(.text "label", .text "x"), (.text "key", .int (tenPow 4300))]))) {} =
      .error .numeralTooLong := by
  generalize hcolumn : Datum.record (.entries [(.text "label", .text "x"), (.text "key", .int (tenPow 4300))]) = d
  have hbuild : (Registry.builtIn.build false "labels" (.stray d) {}).1 = .error (.noPart .record "key") := by
    rw [← hcolumn]
    rfl
  have hint : ∀ room, (Datum.int (tenPow 4300)).writtenWithin room = .error .numeralTooLong := by
    intro room
    rw [Datum.writtenWithin, writeInt, if_neg (by decide +kernel)]
  have hwritten : (ColumnSource.stray d).written = .error .numeralTooLong := by
    rw [← hcolumn]
    rw [ColumnSource.written, Datum.written, Datum.writtenWithin, Record.writtenWithin,
      takeRoom_of_le (by decide)]
    simp only [writtenEntries, Datum.writtenWithin.eq_def _ (.text _), hint, ok_bind, error_bind]
  exact renderColumn_eq_error (by decide) hbuild hwritten

end Label

end ColumnLabel
