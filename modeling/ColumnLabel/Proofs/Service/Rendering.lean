import ColumnLabel.Proofs.Context.Shown
import ColumnLabel.Proofs.Service.Http

/-!
# ColumnLabel.Proofs.Service.Rendering

When the label service answers a request for a label.

Once a request is taken, the label itself can no longer fail, as it falls back on its template.  What can is all
around it: the statistics of the column, which may be beyond the doubles, and the list of its variables, in which an
integer may have too many digits.  The main statement says that nothing else can in a request that is not nested too
deep, and that each of these does fail the request (`answer_render_iff`); one row whose only cell is `10 ^ 309` is
enough (`answer_render_beyond_doubles`).
-/

namespace ColumnLabel.Service

/-- Can a request be answered?  Its numeric cells need statistics in reach of the doubles, and their sum and
the numbers of rows and of shown metrics digits that may be written out. -/
structure RenderRequest.IsAnswerable (metricsByDefault : Bool) (request : RenderRequest) : Prop where
  statistics : Statistics.IsInReach request.numbers
  sum : Statistics.fromDouble request.numbers = [] →
    Numeral.isWritable (Statistics.leadingSum request.numbers) = true
  rowCount : Numeral.isWritable request.rows.length = true
  metricCount : request.input.includeMetrics.getD metricsByDefault = true →
    Numeral.isWritable request.metrics.length = true

instance (metricsByDefault : Bool) (request : RenderRequest) :
    Decidable (request.IsAnswerable metricsByDefault) :=
  decidable_of_iff
    (Statistics.IsInReach request.numbers ∧
      (Statistics.fromDouble request.numbers = [] →
        Numeral.isWritable (Statistics.leadingSum request.numbers) = true) ∧
      Numeral.isWritable request.rows.length = true ∧
      (request.input.includeMetrics.getD metricsByDefault = true →
        Numeral.isWritable request.metrics.length = true))
    ⟨fun ⟨statistics, sum, rowCount, metricCount⟩ => ⟨statistics, sum, rowCount, metricCount⟩,
      fun h => ⟨h.statistics, h.sum, h.rowCount, h.metricCount⟩⟩

/-! ## The label of a request -/

/-- The auxiliary values of a request are known, and nested no deeper than the record they are in. -/
theorem RenderRequest.IsJson.exists_auxiliaryEntries_eq_ok {request : RenderRequest} (h : request.IsJson) :
    ∃ es, Registry.auxiliaryEntries request.input.auxiliary = .ok es ∧ Record.AreJson es ∧
      (request.IsShallow → ∀ e ∈ es, e.2.depth ≤ maxDepth) := by
  obtain hnone | ⟨es, hes, hjson⟩ := h.auxiliary
  · exact ⟨[], by rw [hnone]; rfl, by simp [Record.AreTexts], by simp⟩
  · refine ⟨es, ?_, hjson, fun hshallow e he => ?_⟩
    · rw [hes]
      cases es <;> rfl
    · have hdepth := hshallow.auxiliary
      rw [hes, Datum.depth_entries] at hdepth
      exact (depthOfEntries_le_iff.mp (Nat.le_of_succ_le hdepth) e he).2

/-- With statistics in reach, the facts about the column are known, and what has to be written out of them
decides. -/
theorem RenderRequest.IsJson.exists_gather_eq_ok {request : RenderRequest} (h : request.IsJson)
    (metricsByDefault : Bool) (hreach : Statistics.IsInReach request.numbers) :
    ∃ facts, ColumnFacts.gather metricsByDefault (.column request.column) request.input = .ok facts ∧
      facts.IsJson ∧ facts.rows = request.rows ∧
      (facts.AreWritable ↔ request.IsAnswerable metricsByDefault) := by
  obtain ⟨rows, hrows, hjson⟩ := h.rows
  obtain ⟨metrics, hlength, hgather⟩ := h.gather_eq metricsByDefault
  obtain ⟨statistics, hstatistics⟩ := (Statistics.exists_ofNumbers_eq_ok_iff _).mpr hreach
  have hrowsJson : ∀ row ∈ request.rows, row.IsJson := by
    rwa [RenderRequest.rows, hrows]
  rw [hstatistics] at hgather
  refine ⟨_, hgather, ⟨h.label, h.key, h.dataType, hrowsJson, hstatistics⟩, rfl, ?_⟩
  constructor
  · intro hwritable
    obtain ⟨hsum, hcount, hmetrics⟩ := hwritable
    exact ⟨hreach, hsum, hcount, fun hinclude => hlength ▸ hmetrics hinclude⟩
  · intro hanswerable
    obtain ⟨_, hsum, hcount, hmetrics⟩ := hanswerable
    exact ⟨hsum, hcount, fun hinclude => hlength ▸ hmetrics hinclude⟩

/-- Without them, they are not. -/
theorem RenderRequest.IsJson.exists_gather_eq_error {request : RenderRequest} (h : request.IsJson)
    (metricsByDefault : Bool) (hreach : ¬Statistics.IsInReach request.numbers) :
    ∃ fault,
      ColumnFacts.gather metricsByDefault (.column request.column) request.input = .error fault := by
  obtain ⟨_, _, hgather⟩ := h.gather_eq metricsByDefault
  cases hstatistics : Statistics.ofNumbers request.numbers with
  | error fault => exact ⟨fault, by rw [hgather, hstatistics]; rfl⟩
  | ok statistics =>
      exact absurd ((Statistics.exists_ofNumbers_eq_ok_iff _).mp ⟨statistics, hstatistics⟩) hreach

namespace RenderRequest

/-- The context that the service builds for a request. -/
def context (metricsByDefault : Bool) (request : RenderRequest) : Except Fault Context :=
  (Registry.builtIn.build metricsByDefault Logger.contexts (.column request.column) request.input).1

variable {request : RenderRequest} {metricsByDefault : Bool}

/-- So with statistics in reach there is a context, and if the request is not nested too deep, the context can be listed
exactly when the request can be answered. -/
theorem IsJson.exists_context_eq_ok (h : request.IsJson) (hshallow : request.IsShallow)
    (hreach : Statistics.IsInReach request.numbers) :
    ∃ context, request.context metricsByDefault = .ok context ∧
      ((∃ shown, context.displayValues = .ok shown) ↔ request.IsAnswerable metricsByDefault) := by
  obtain ⟨facts, hfacts, hjson, hrows, hwritable⟩ := h.exists_gather_eq_ok metricsByDefault hreach
  obtain ⟨es, hes, hesJson, hesDepth⟩ := h.exists_auxiliaryEntries_eq_ok
  obtain ⟨context, hcontext, hlist⟩ := Registry.exists_build_eq_ok .builtIn Logger.contexts
    (fun v => Variable.isWrapping_of_mem_builtIn) hfacts hes
    (fun e he => ⟨(hesJson e he).1, (hesJson e he).2, hesDepth hshallow e he⟩)
  refine ⟨context, hcontext, ?_⟩
  rw [hlist, ← hwritable]
  exact Variable.forall_shows_builtIn_iff hjson (hrows ▸ hshallow.rows)

/-- Without them there is none. -/
theorem IsJson.exists_context_eq_error (h : request.IsJson) (metricsByDefault : Bool)
    (hreach : ¬Statistics.IsInReach request.numbers) : ∃ fault, request.context metricsByDefault = .error fault := by
  obtain ⟨fault, hfault⟩ := h.exists_gather_eq_error metricsByDefault hreach
  exact ⟨fault, by simp only [context, Registry.build, hfault]⟩

/-- The values of the context are wrapped. -/
theorem IsJson.isWrapped_of_context_eq_ok (h : request.IsJson) {context : Context}
    (hbuild : request.context metricsByDefault = .ok context) : context.IsWrapped := by
  refine Registry.isWrapped_of_build_eq_ok hbuild (fun v => Variable.isWrapping_of_mem_builtIn) ?_ ?_
  · intro facts hfacts
    by_cases hreach : Statistics.IsInReach request.numbers
    · obtain ⟨facts', hfacts', hjson, _⟩ := h.exists_gather_eq_ok metricsByDefault hreach
      obtain rfl : facts' = facts := Except.ok.inj (hfacts'.symm.trans hfacts)
      exact Variable.forall_saysWrapped_builtIn hjson
    · obtain ⟨fault, hfault⟩ := h.exists_gather_eq_error metricsByDefault hreach
      rw [hfault] at hfacts
      contradiction
  · intro es hes
    obtain ⟨es', hes', hjson, _⟩ := h.exists_auxiliaryEntries_eq_ok
    obtain rfl : es' = es := Except.ok.inj (hes'.symm.trans hes)
    exact hjson

end RenderRequest

/-! ## The answer to a request -/

section

variable {request : RenderRequest} {metricsByDefault : Bool}

/-- A request is answered when there is a context that can be listed, with what it makes of the request. -/
theorem render_of_displayValues_eq_ok {context : Context} {shown : List (String × Datum)}
    (hbuild : request.context metricsByDefault = .ok context) (hshown : context.displayValues = .ok shown) :
    render metricsByDefault request = .ok 200 (
      let label := (Label.renderWith Logger.labels (.text request.template) (.ok context)).1
      fields [("label", .text (Label.finish request.escape label)), ("variables", fields shown),
        ("unresolved", .list ((context.unresolved label).map .text))]) := by
  rw [RenderRequest.context] at hbuild
  simp only [render, hbuild, hshown]

/-- Else it fails. -/
theorem render_eq_failed_or_exists (metricsByDefault : Bool) (request : RenderRequest) :
    render metricsByDefault request = .failed ∨
      ∃ context shown, request.context metricsByDefault = .ok context ∧ context.displayValues = .ok shown := by
  cases hbuild : request.context metricsByDefault with
  | error fault =>
      rw [RenderRequest.context] at hbuild
      exact .inl (by simp only [render, hbuild])
  | ok context =>
      cases hshown : context.displayValues with
      | error fault =>
          rw [RenderRequest.context] at hbuild
          exact .inl (by simp only [render, hbuild, hshown])
      | ok shown => exact .inr ⟨context, shown, rfl, hshown⟩

/-- A context of wrapped values is listed in texts, so what it makes of a request is small. -/
theorem isSmall_of_displayValues_eq_ok {context : Context} (hc : context.IsWrapped) {shown : List (String × Datum)}
    (hshown : context.displayValues = .ok shown) (label : String) (unresolved : List String) :
    IsSmall 2 (fields [("label", .text label), ("variables", fields shown),
      ("unresolved", .list (unresolved.map .text))]) := by
  obtain ⟨texts, -, rfl⟩ := hc.exists_isListed hshown
  have hvariables : IsSmall 1 (fields (texts.map fun t => (t.1, .text t.2))) := by
    refine isSmall_fields fun f hf => ?_
    obtain ⟨e, -, rfl⟩ := List.mem_map.mp hf
    exact isSmall_text 0 e.2
  refine isSmall_fields fun f hf => ?_
  simp only [List.mem_cons, List.not_mem_nil, or_false] at hf
  obtain rfl | rfl | rfl := hf
  · exact isSmall_text 1 label
  · exact hvariables
  · exact isSmall_texts unresolved

variable {gateway : Gateway} {method reference : String} {body : Option ByteArray}

/-- A request for a label is answered with what the service makes of it. -/
theorem Gateway.IsSound.answer_render (hsound : gateway.IsSound) (metricsByDefault : Bool)
    (htake : gateway.take method reference body = .render request) :
    gateway.answer metricsByDefault method reference body = render metricsByDefault request := by
  rw [Gateway.answer, htake, respond]
  obtain hfailed | ⟨context, shown, hbuild, hshown⟩ := render_eq_failed_or_exists metricsByDefault request
  · rw [hfailed, hsound.deliver_failed]
  · have hc := (hsound.isJson htake).isWrapped_of_context_eq_ok hbuild
    rw [render_of_displayValues_eq_ok hbuild hshown]
    exact hsound.deliver_ok 200 (isSmall_of_displayValues_eq_ok hc hshown _ _)

theorem RenderRequest.IsJson.exists_render_eq_ok (h : request.IsJson) (hshallow : request.IsShallow)
    (hanswerable : request.IsAnswerable metricsByDefault) :
    ∃ label, render metricsByDefault request = .ok 200 label := by
  obtain ⟨context, hbuild, hlist⟩ := h.exists_context_eq_ok hshallow hanswerable.statistics
  obtain ⟨shown, hshown⟩ := hlist.mpr hanswerable
  exact ⟨_, render_of_displayValues_eq_ok hbuild hshown⟩

theorem RenderRequest.IsJson.render_eq_failed (h : request.IsJson) (hshallow : request.IsShallow)
    (hanswerable : ¬request.IsAnswerable metricsByDefault) : render metricsByDefault request = .failed := by
  obtain hfailed | ⟨context, shown, hbuild, hshown⟩ := render_eq_failed_or_exists metricsByDefault request
  · exact hfailed
  · by_cases hreach : Statistics.IsInReach request.numbers
    · obtain ⟨context', hbuild', hlist⟩ := h.exists_context_eq_ok hshallow hreach
      obtain rfl : context' = context := Except.ok.inj (hbuild'.symm.trans hbuild)
      exact absurd (hlist.mp ⟨shown, hshown⟩) hanswerable
    · obtain ⟨fault, hfault⟩ := h.exists_context_eq_error metricsByDefault hreach
      rw [hfault] at hbuild
      contradiction

/-- **Rendering.**  Behind any gateway that the service can rely on, a request for a label that is not nested too deep
is answered with status 200 exactly when it can be answered, and fails otherwise. -/
theorem answer_render_iff (metricsByDefault : Bool) (hsound : gateway.IsSound)
    (htake : gateway.take method reference body = .render request) (hshallow : request.IsShallow) :
    ((∃ label, gateway.answer metricsByDefault method reference body = .ok 200 label) ↔
        request.IsAnswerable metricsByDefault) ∧
      (gateway.answer metricsByDefault method reference body = .failed ↔
        ¬request.IsAnswerable metricsByDefault) := by
  have hjson := hsound.isJson htake
  rw [hsound.answer_render metricsByDefault htake]
  by_cases hanswerable : request.IsAnswerable metricsByDefault
  · obtain ⟨label, hlabel⟩ := hjson.exists_render_eq_ok hshallow hanswerable
    simp [hlabel, hanswerable]
  · have hfailed := hjson.render_eq_failed hshallow hanswerable
    simp [hfailed, hanswerable]

end

/-! ## Single cells -/

/-- What holds of the request that a body stands for is found by reading it. -/
theorem exists_take_eq_render (cs : List Char) (P : RenderRequest → Prop) [DecidablePred P]
    (hascii : (cs.take 2).all Text.isPlainAscii = true)
    (h : (((Json.readDatum maxDepth (2 * cs.length + 2) (Json.skipBlanks cs)).toOption.filter
      fun result => Json.skipBlanks result.2 = []).bind fun result =>
        (object renderRequest result.1).toOption).any (fun request => decide (P request)) = true) :
    ∃ request, Gateway.http.take "POST" "/api/v1/labels/render" (some (String.ofList cs).toUTF8) =
      .render request ∧ P request := by
  rw [take_post_render]
  exact exists_readBody_eq (object renderRequest) .render cs P hascii h

/-- A body that asks for the label of a column with a single cell. -/
def bodyWithCell (cell : List Char) : List Char :=
  "\x7b\"template\":\"hi\",\"column\":\x7b\"label\":\"x\"\x7d,\"rows\":[\x7b\"x\":".toList ++
    (cell ++ "\x7d]\x7d".toList)

/-- The largest integer that is in reach of the doubles. -/
theorem answer_render_largest_integer :
    let body := some (String.ofList (bodyWithCell (Numeral.digits (Double.reach - 1)))).toUTF8
    Gateway.http.IsSound ∧
      ∃ request label, Gateway.http.take "POST" "/api/v1/labels/render" body = .render request ∧
        request.IsShallow ∧
        Gateway.http.answer false "POST" "/api/v1/labels/render" body = .ok 200 label := by
  intro body
  obtain ⟨request, htake, hanswerable⟩ :=
    exists_take_eq_render (bodyWithCell (Numeral.digits (Double.reach - 1)))
      (fun request => request.IsAnswerable false) (by decide +kernel) (by decide +kernel)
  have hshallow := isShallow_of_take_http htake
  obtain ⟨label, hlabel⟩ := (answer_render_iff false isSound_http htake hshallow).1.mpr hanswerable
  exact ⟨isSound_http, request, label, htake, hshallow, hlabel⟩

/-- A row whose only cell is `10 ^ 309` fails a request that is taken. -/
theorem answer_render_beyond_doubles :
    let body := some (String.ofList (bodyWithCell ('1' :: List.replicate 309 '0'))).toUTF8
    ∃ request, Gateway.http.take "POST" "/api/v1/labels/render" body = .render request ∧ request.IsShallow ∧
      Gateway.http.answer false "POST" "/api/v1/labels/render" body = .failed := by
  intro body
  obtain ⟨request, htake, hanswerable⟩ :=
    exists_take_eq_render (bodyWithCell ('1' :: List.replicate 309 '0'))
      (fun request => ¬request.IsAnswerable false) (by decide +kernel) (by decide +kernel)
  have hshallow := isShallow_of_take_http htake
  refine ⟨request, htake, hshallow, ?_⟩
  rw [isSound_http.answer_render false htake]
  exact (isSound_http.isJson htake).render_eq_failed hshallow hanswerable

end ColumnLabel.Service
