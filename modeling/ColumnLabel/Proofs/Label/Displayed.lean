import ColumnLabel.Label.Render
import ColumnLabel.Proofs.Steps
import ColumnLabel.Proofs.Text.Html

/-!
# ColumnLabel.Proofs.Label.Displayed

Labels of columns, and such labels ready for display.

The label of a column is what its context makes of the template (`renderColumn_of_build_eq_ok`), or the template
itself where there is no context (`renderColumn_of_build_eq_error`).  In either case the label for display is
trimmed, and the one for HTML is its escaped form (`exists_isEscapeOf_of_generate_eq_ok`).
-/

namespace ColumnLabel.Label

open Text

variable {registry : Registry} {metricsByDefault : Bool} {logger : String} {source : ColumnSource}
  {input : BuildInput}

/-! ## The label of a column -/

theorem renderColumn_empty :
    renderColumn registry metricsByDefault logger (.text "") source input = .ok ("", []) := rfl

/-- Once there is a context, the label is the one that the context makes. -/
theorem renderColumn_of_build_eq_ok {context : Context}
    (h : (registry.build metricsByDefault logger source input).1 = .ok context) (template : String) :
    (renderColumn registry metricsByDefault logger (.text template) source input).map (·.1) =
      .ok (renderWith logger (.text template) (.ok context)).1 := by
  by_cases ht : template = ""
  · rw [ht]
    rfl
  · simp [renderColumn, renderWith, template?, ht, h, Except.map]

/-- Without one the template is the label, unless what was handed over as a column cannot even be written into
the error. -/
theorem renderColumn_of_build_eq_error {template : String} (ht : template ≠ "") {fault : Fault}
    (h : (registry.build metricsByDefault logger source input).1 = .error fault) :
    (renderColumn registry metricsByDefault logger (.text template) source input).map (·.1) =
      source.written.map fun _ => template := by
  simp only [renderColumn, template?, String.isEmpty_iff, ht, if_false, h]
  cases source.written <;> rfl

/-! ## Ready for display -/

variable {template : Datum}

/-- A label for display is the finished label of the column, and the same is reported. -/
theorem generate_eq_map (escape : Bool) :
    generate registry metricsByDefault logger template source input escape =
      (renderColumn registry metricsByDefault logger template source input).map
        fun result => (finish escape result.1, result.2) := by
  rw [generate]
  cases renderColumn registry metricsByDefault logger template source input <;> rfl

theorem isTrimmed_finish (escape : Bool) (raw : String) : IsTrimmed (finish escape raw) := by
  have htrimmed := isTrimmed_trimmed raw
  cases escape with
  | false => exact htrimmed
  | true => exact htrimmed.escapeHtml

/-- **Labels for display.**  When there is a label at all, plain or escaped, there are both.  Both are trimmed,
and the escaped one is safe in HTML and can be read back as the plain one. -/
theorem exists_isEscapeOf_of_generate_eq_ok {escape : Bool} {result : String × List Entry}
    (h : generate registry metricsByDefault logger template source input escape = .ok result) :
    ∃ plain escaped entries,
      generate registry metricsByDefault logger template source input false = .ok (plain, entries) ∧
      generate registry metricsByDefault logger template source input true = .ok (escaped, entries) ∧
      IsEscapeOf escaped plain ∧ IsTrimmed plain ∧ IsTrimmed escaped := by
  rw [generate_eq_map, map_eq_ok_iff] at h
  obtain ⟨⟨raw, entries⟩, hraw, _⟩ := h
  have hgenerate : ∀ escape, generate registry metricsByDefault logger template source input escape =
      .ok (finish escape raw, entries) := by
    intro escape
    rw [generate_eq_map, hraw]
    rfl
  exact ⟨finish false raw, finish true raw, entries, hgenerate false, hgenerate true,
    isEscapeOf_escapeHtml (trimmed raw), isTrimmed_finish false raw, isTrimmed_finish true raw⟩

/-- Without a column the template stands in for the label. -/
theorem exists_isEscapeOf_of_generate_eq_ok_without_column :
    let label := generate .builtIn false "labels" (.text " <{{row_count}}>\n& ") (.stray .none) {}
    (∃ entries, label true = .ok ("&lt;{{row_count}}&gt;\n&amp;", entries)) ∧
      IsEscapeOf "&lt;{{row_count}}&gt;\n&amp;" "<{{row_count}}>\n&" ∧
      IsTrimmed "<{{row_count}}>\n&" ∧ IsTrimmed "&lt;{{row_count}}&gt;\n&amp;" := by
  intro label
  have hlabel : ∀ escape, ∃ entries, label escape = .ok (finish escape " <{{row_count}}>\n& ", entries) :=
    fun escape => ⟨_, rfl⟩
  obtain ⟨_, htrue⟩ := hlabel true
  obtain ⟨_, hfalse⟩ := hlabel false
  obtain ⟨plain, escaped, entries, hplain, hescaped, hescape, htrimmed⟩ :=
    exists_isEscapeOf_of_generate_eq_ok htrue
  obtain ⟨rfl, _⟩ := Prod.mk.inj (Except.ok.inj (hplain.symm.trans hfalse))
  obtain ⟨rfl, _⟩ := Prod.mk.inj (Except.ok.inj (hescaped.symm.trans htrue))
  have hplaintext : finish false " <{{row_count}}>\n& " = "<{{row_count}}>\n&" := by decide
  have hescapedtext : finish true " <{{row_count}}>\n& " = "&lt;{{row_count}}&gt;\n&amp;" := by
    decide
  rw [hplaintext, hescapedtext] at hescape htrimmed
  rw [hescapedtext] at htrue
  exact ⟨⟨_, htrue⟩, hescape, htrimmed⟩

end ColumnLabel.Label
