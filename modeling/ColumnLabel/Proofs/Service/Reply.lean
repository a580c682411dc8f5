import ColumnLabel.Proofs.Context.Restricted
import ColumnLabel.Proofs.Label.Displayed
import ColumnLabel.Proofs.Label.Unresolved
import ColumnLabel.Proofs.Service.Rendering

/-!
# ColumnLabel.Proofs.Service.Reply

What the label service says when it answers a request for a label.

It says what the context of the column makes of the request (`exists_reply_of_answer_eq_ok`).  So its label is
the label of the column, and the texts of its variables are those that fill the placeholders
(`exists_reply_label_eq_generate`).  The placeholders that it calls open are looked for in the label, not in the
template: those of the template are among them, but so may be others that the texts of values only look like
(`exists_reply_unresolved_eq_iff`), as in a label whose one variable has the text of a placeholder
(`exists_reply_unresolved_ne`).
-/

namespace ColumnLabel

/-! ## Labels -/

/-- The context of a column does not depend on who is told about it. -/
theorem Registry.build_fst_eq {registry : Registry} {metricsByDefault : Bool} {source : ColumnSource}
    {input : BuildInput} {logger : String} {context : Context}
    (h : (registry.build metricsByDefault logger source input).1 = .ok context) (logger' : String) :
    (registry.build metricsByDefault logger' source input).1 = .ok context :=
  build_eq_ok_iff.mpr (build_eq_ok_iff.mp h)

/-- Once there is a context, the label of a column is the one that the context makes of the template, ready for
display. -/
theorem Label.generate_eq {registry : Registry} {metricsByDefault : Bool}
    {source : ColumnSource} {input : BuildInput} {logger : String} {context : Context}
    (h : (registry.build metricsByDefault logger source input).1 = .ok context)
    (logger' template : String) (escape : Bool) :
    (generate registry metricsByDefault logger' (.text template) source input escape).map (·.1) =
      .ok (finish escape (renderWith logger (.text template) (.ok context)).1) := by
  have hlabel := renderColumn_of_build_eq_ok (Registry.build_fst_eq h logger') template
  rw [map_eq_ok_iff] at hlabel
  obtain ⟨result, hresult, hraw⟩ := hlabel
  rw [generate_eq_map, hresult, renderWith_fst_eq context logger logger', ← hraw]
  rfl

/-- A context that can be listed leaves no segment that cannot be filled. -/
theorem Context.canFill_of_displayValues_eq_ok {c : Context} {shown : List (String × Datum)}
    (h : c.displayValues = .ok shown) (s : Segment) : c.canFill s = true := by
  have hshown := c.exists_displayValues_eq_ok_iff.mp ⟨shown, h⟩
  cases hfill : c.canFill s with
  | true => rfl
  | false =>
      obtain ⟨name, raw, v, rfl, hv, -⟩ := exists_maxDepth_lt_depth hfill
      obtain ⟨d, hd⟩ := hshown _ (mem_entries_of_get? hv)
      simp only [canFill, isTooDeep, hv, Option.any_some, Bool.not_eq_false', Value.isTooDeep_iff] at hfill
      obtain ⟨doing, hdoing⟩ := hfill
      rw [hdoing] at hd
      contradiction

namespace Service

/-! ## Replies -/

/-- What the answer to a request for a label says: the label, the variables with their texts, and the names
of the placeholders that are found open. -/
structure Reply where
  label : String
  shown : List (String × String)
  unresolved : List String

namespace Reply

/-- The body of the answer. -/
def body (reply : Reply) : Datum :=
  fields [("label", .text reply.label),
    ("variables", fields (reply.shown.map fun (name, text) => (name, .text text))),
    ("unresolved", .list (reply.unresolved.map .text))]

/-- The text that stands for a segment by what the reply says of its variables: for a placeholder the text
of its name, or its own source if the name is none of them. -/
def piece (reply : Reply) : Segment → String
  | .literal text => text
  | .placeholder name raw => (reply.shown.lookup name).getD raw

/-- The reply says what a context makes of a request. -/
structure Tells (reply : Reply) (request : RenderRequest) (context : Context) : Prop where
  label : reply.label = Label.finish request.escape
    (Label.renderWith Logger.labels (.text request.template) (.ok context)).1
  shown : context.IsListed reply.shown
  unresolved : reply.unresolved =
    context.unresolved (Label.renderWith Logger.labels (.text request.template) (.ok context)).1

/-- Its variables give the texts that fill placeholders. -/
theorem Tells.piece_eq {reply : Reply} {request : RenderRequest} {context : Context}
    (h : reply.Tells request context) : reply.piece = context.emit := by
  funext s
  cases s with
  | literal text => rfl
  | placeholder name raw =>
      rw [piece, Context.emit, h.shown.map_display_get?]
      cases reply.shown.lookup name <;> rfl

end Reply

/-! ## The reply to a request -/

section

variable {gateway : Gateway} {method reference : String} {body : Option ByteArray} {metricsByDefault : Bool}
  {request : RenderRequest}

/-- An answer to a request for a label tells what the context of the column makes of it. -/
theorem exists_reply_of_render_eq_ok (h : request.IsJson) {d : Datum}
    (hd : render metricsByDefault request = .ok 200 d) :
    ∃ (context : Context) (reply : Reply),
      request.context metricsByDefault = .ok context ∧
      context.IsWrapped ∧ (∀ s, context.canFill s = true) ∧ d = reply.body ∧ reply.Tells request context := by
  obtain hfailed | ⟨context, shown, hbuild, hshown⟩ := render_eq_failed_or_exists metricsByDefault request
  · rw [hfailed] at hd
    contradiction
  · have hc := h.isWrapped_of_context_eq_ok hbuild
    obtain ⟨texts, htexts, rfl⟩ := hc.exists_isListed hshown
    rw [render_of_displayValues_eq_ok hbuild hshown, Answer.ok.injEq] at hd
    exact ⟨context, ⟨_, texts, _⟩, hbuild, hc, Context.canFill_of_displayValues_eq_ok hshown, hd.2.symm,
      rfl, htexts, rfl⟩

theorem exists_reply_of_answer_eq_ok (hsound : gateway.IsSound)
    (htake : gateway.take method reference body = .render request) {d : Datum}
    (hd : gateway.answer metricsByDefault method reference body = .ok 200 d) :
    ∃ (context : Context) (reply : Reply),
      request.context metricsByDefault = .ok context ∧
      context.IsWrapped ∧ (∀ s, context.canFill s = true) ∧ d = reply.body ∧ reply.Tells request context := by
  rw [hsound.answer_render metricsByDefault htake] at hd
  exact exists_reply_of_render_eq_ok (hsound.isJson htake) hd

theorem exists_answer_http_eq_ok (htake : Gateway.http.take method reference body = .render request)
    (hanswerable : request.IsAnswerable metricsByDefault) :
    ∃ d, Gateway.http.answer metricsByDefault method reference body = .ok 200 d := by
  rw [isSound_http.answer_render metricsByDefault htake]
  exact (isSound_http.isJson htake).exists_render_eq_ok (isShallow_of_take_http htake) hanswerable

/-- **Replies.**  The label that the service answers with, behind any gateway that it can rely on, is the label of the
column.  Before it is made ready for display, each placeholder of the text with its blocks resolved is filled with the
text that the answer gives for its name, and the answer gives all names of the context in order. -/
theorem exists_reply_label_eq_generate (hsound : gateway.IsSound)
    (htake : gateway.take method reference body = .render request) {d : Datum}
    (hd : gateway.answer metricsByDefault method reference body = .ok 200 d) :
    ∃ (context : Context) (reply : Reply),
      request.context metricsByDefault = .ok context ∧
      d = reply.body ∧
      (∀ logger, (Label.generate .builtIn metricsByDefault logger (.text request.template)
        (.column request.column) request.input request.escape).map (·.1) = .ok reply.label) ∧
      (Label.renderWith Logger.labels (.text request.template) (.ok context)).1 =
        String.join ((Segment.read (context.resolveBlocks Logger.labels request.template).1).map
          reply.piece) ∧
      reply.shown.map (·.1) = context.names := by
  obtain ⟨context, reply, hbuild, hc, hfill, hbody, htells⟩ := exists_reply_of_answer_eq_ok hsound htake hd
  have hgenerate : ∀ logger, (Label.generate .builtIn metricsByDefault logger (.text request.template)
      (.column request.column) request.input request.escape).map (·.1) = .ok reply.label := by
    intro logger
    rw [htells.label, ← Label.renderWith_fst_eq context Logger.contexts]
    exact Label.generate_eq hbuild logger request.template request.escape
  have hpieces : (Label.renderWith Logger.labels (.text request.template) (.ok context)).1 = _ :=
    Label.renderWith_eq_emitAll hc (List.all_eq_true.mpr fun s _ => hfill s)
  rw [Context.emitAll, ← htells.piece_eq] at hpieces
  exact ⟨context, reply, hbuild, hbody, hgenerate, hpieces, htells.shown.map_fst_eq⟩

/-- A label that is trimmed and escaped, and in which one placeholder stays open. -/
def bodyWithBlock : List Char :=
  ("\x7b\"template\":\" \x7b\x7ba\x7d\x7d \x7b\x7bnobody\x7d\x7d\x7b% if a %\x7d!\x7b% endif %\x7d\"," ++
    "\"column\":\x7b\"label\":\"x\"\x7d,\"aux_values\":\x7b\"a\":\"1 < 2\"\x7d,\"escape\":true\x7d").toList

theorem exists_reply_label_eq_generate_escaped :
    let body := some (String.ofList bodyWithBlock).toUTF8
    Gateway.http.IsSound ∧
      ∃ (request : RenderRequest) (reply : Reply),
        Gateway.http.take "POST" "/api/v1/labels/render" body = .render request ∧
        Gateway.http.answer false "POST" "/api/v1/labels/render" body = .ok 200 reply.body ∧
        (∀ logger, (Label.generate .builtIn false logger (.text request.template)
          (.column request.column) request.input request.escape).map (·.1) = .ok reply.label) ∧
        reply.label = "1 &lt; 2 {{nobody}}!" := by
  intro body
  obtain ⟨request, htake, hanswerable, hlabel⟩ := exists_take_eq_render bodyWithBlock
    (fun request => request.IsAnswerable false ∧
      ((Label.generate .builtIn false "" (.text request.template) (.column request.column) request.input
        request.escape).map (·.1)).toOption = some "1 &lt; 2 {{nobody}}!")
    (by decide +kernel) (by decide +kernel)
  obtain ⟨d, hd⟩ := exists_answer_http_eq_ok htake hanswerable
  obtain ⟨context, reply, _, rfl, hgenerate, _⟩ := exists_reply_label_eq_generate isSound_http htake hd
  rw [hgenerate, Except.toOption, Option.some.injEq] at hlabel
  exact ⟨isSound_http, request, reply, htake, hd, hgenerate, hlabel⟩

/-- **Placeholders found open.**  The answer names all placeholders without a value of the text with its
blocks resolved, in order.  It names nothing else exactly when what is filled in between them has, by itself,
no placeholder without a value. -/
theorem exists_reply_unresolved_eq_iff (hsound : gateway.IsSound)
    (htake : gateway.take method reference body = .render request) {d : Datum}
    (hd : gateway.answer metricsByDefault method reference body = .ok 200 d) :
    ∃ (context : Context) (reply : Reply),
      request.context metricsByDefault = .ok context ∧
      d = reply.body ∧
      let branched := (context.resolveBlocks Logger.labels request.template).1
      (context.unresolved branched).Sublist reply.unresolved ∧
        (reply.unresolved = context.unresolved branched ↔
          ∀ run ∈ (Segment.read branched).splitOnP context.isOpen,
            context.unresolved (context.emitAll run) = []) := by
  obtain ⟨context, reply, hbuild, hc, hfill, hbody, htells⟩ := exists_reply_of_answer_eq_ok hsound htake hd
  have hunresolved := htells.unresolved
  rw [Label.renderWith_eq_emitAll hc (List.all_eq_true.mpr fun s _ => hfill s)] at hunresolved
  have hread := Segment.isRead_of_mem_readChars
    (context.resolveBlocks Logger.labels request.template).1.toList
  refine ⟨context, reply, hbuild, hbody, ?_⟩
  rw [hunresolved]
  exact Context.unresolved_emitAll_eq_iff hread

/-- Here it names the one placeholder that stays open and nothing else. -/
theorem exists_reply_unresolved_eq_iff_nobody :
    let body := some (String.ofList bodyWithBlock).toUTF8
    Gateway.http.IsSound ∧
      ∃ (request : RenderRequest) (d : Datum) (reply : Reply),
        Gateway.http.take "POST" "/api/v1/labels/render" body = .render request ∧
        Gateway.http.answer false "POST" "/api/v1/labels/render" body = .ok 200 d ∧
        d = reply.body ∧ reply.unresolved = ["nobody"] := by
  intro body
  obtain ⟨request, htake, hanswerable, hruns⟩ := exists_take_eq_render bodyWithBlock
    (fun request => request.IsAnswerable false ∧
      ((request.context false).toOption.any fun context =>
        let branched := (context.resolveBlocks Logger.labels request.template).1
        context.unresolved branched = ["nobody"] ∧
        ∀ run ∈ (Segment.read branched).splitOnP context.isOpen,
          context.unresolved (context.emitAll run) = []) = true)
    (by decide +kernel) (by decide +kernel)
  obtain ⟨d, hd⟩ := exists_answer_http_eq_ok htake hanswerable
  obtain ⟨context, reply, hbuild, hbody, _, hiff⟩ := exists_reply_unresolved_eq_iff isSound_http htake hd
  simp only [hbuild, Except.toOption, Option.any_some, decide_eq_true_eq] at hruns
  obtain ⟨hown, hruns⟩ := hruns
  exact ⟨isSound_http, request, d, reply, htake, hd, hbody, (hiff.mpr hruns).trans hown⟩

end

/-- A label whose only variable has the text of a placeholder. -/
def bodyWithMarks : List Char :=
  ("\x7b\"template\":\"\x7b\x7ba\x7d\x7d\",\"column\":\x7b\"label\":\"x\"\x7d," ++
    "\"aux_values\":\x7b\"a\":\"\x7b\x7bb\x7d\x7d\"\x7d\x7d").toList

/-- The text of a value is taken for a placeholder that was left open. -/
theorem exists_reply_unresolved_ne :
    let body := some (String.ofList bodyWithMarks).toUTF8
    ∃ (request : RenderRequest) (context : Context) (reply : Reply),
      Gateway.http.take "POST" "/api/v1/labels/render" body = .render request ∧
      Gateway.http.answer false "POST" "/api/v1/labels/render" body = .ok 200 reply.body ∧
      request.context false = .ok context ∧
      context.unresolved (context.resolveBlocks Logger.labels request.template).1 = [] ∧
      reply.unresolved = ["b"] := by
  intro body
  obtain ⟨request, htake, hanswerable, hlabel⟩ := exists_take_eq_render bodyWithMarks
    (fun request => request.IsAnswerable false ∧
      ((request.context false).toOption.any fun context =>
        context.unresolved (context.resolveBlocks Logger.labels request.template).1 = [] ∧
        context.unresolved (Label.renderWith Logger.labels (.text request.template) (.ok context)).1 =
          ["b"]) = true)
    (by decide +kernel) (by decide +kernel)
  obtain ⟨d, hd⟩ := exists_answer_http_eq_ok htake hanswerable
  obtain ⟨context, reply, hbuild, -, -, rfl, htells⟩ := exists_reply_of_answer_eq_ok isSound_http htake hd
  simp only [hbuild, Except.toOption, Option.any_some, decide_eq_true_eq] at hlabel
  obtain ⟨hown, hfound⟩ := hlabel
  exact ⟨request, context, reply, htake, hd, hbuild, hown, htells.unresolved.trans hfound⟩

end Service

end ColumnLabel
