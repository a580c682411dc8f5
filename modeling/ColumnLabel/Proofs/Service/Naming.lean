import ColumnLabel.Proofs.Column.Name
import ColumnLabel.Proofs.Context.Statistics
import ColumnLabel.Proofs.Service.Http

/-!
# ColumnLabel.Proofs.Service.Naming

Where the friendly name of a column is missing.

A minimum with a dotted capital I has no friendly name.  It costs the context of its column that one variable, and it
fails a request for the name itself (`friendlyName_answers_iff`).
-/

namespace ColumnLabel

open Column (IsDottedMinimum)

/-! ## Contexts -/

/-- One of the built-in variables says the friendly name. -/
theorem Variable.exists_mem_builtIn_column_name :
    ∃ v ∈ builtIn, v.name = "column_name" ∧
      ∀ facts label, facts.column.label = .text label →
        v.said? facts = (Column.friendlyName label).toOption.map fun name => .value (.text name) := by
  refine ⟨_, List.mem_cons_self, rfl, fun facts label hlabel => ?_⟩
  simp only [said?, total, hlabel, nameOfLabel]
  cases Column.friendlyName label <;> rfl

/-- The context of a column has a friendly name if its label does. -/
theorem Registry.mem_names_column_name_iff {metricsByDefault : Bool} {logger : String} {column : Column}
    {label : String} {input : BuildInput} {context : Context} (hlabel : column.label = .text label)
    (h : (builtIn.build metricsByDefault logger (.column column) input).1 = .ok context) :
    "column_name" ∈ context.names ↔ ¬IsDottedMinimum label := by
  obtain ⟨facts, es, named, values, hfacts, _, _, hvalues, rfl⟩ := build_eq_ok_iff.mp h
  obtain ⟨hcolumn, -, -⟩ := ColumnFacts.eq_of_gather_eq_ok hfacts
  obtain rfl := Except.ok.inj hcolumn
  obtain ⟨v, hv, hname, hsaid⟩ := Variable.exists_mem_builtIn_column_name
  rw [← hname, (merges_ofList hvalues).mem_names_iff hv, hsaid facts label hlabel, Option.isSome_map,
    ← Column.exists_friendlyName_eq_ok_iff, Option.isSome_iff_exists]
  simp only [toOption_eq_some_iff]

/-! ## Answers -/

namespace Service

/-- A name that is not blank is answered with its friendly name, if it has one. -/
theorem transform_answers_iff {name : String} (hblank : Text.isBlankText name.toList = false) :
    ((∃ reply, transform name = .ok 200 reply) ↔ ¬IsDottedMinimum name) ∧
      (transform name = .failed ↔ IsDottedMinimum name) := by
  rw [transform, hblank, ← not_iff_not (b := IsDottedMinimum name), ← Column.exists_friendlyName_eq_ok_iff]
  cases hname : Column.friendlyName name <;> simp

/-- **Friendly names.**  A name has a friendly one unless it is a minimum with a dotted capital I.  If it is, the
contexts of a column with this label lack the variable, and a request for the name fails behind any gateway that the
service can rely on; else they have it, and the request is answered. -/
theorem friendlyName_answers_iff (name : String) :
    ((∃ label, Column.friendlyName name = .ok label) ↔ ¬IsDottedMinimum name) ∧
      (∀ metricsByDefault logger column input context, column.label = .text name →
        (Registry.builtIn.build metricsByDefault logger (.column column) input).1 = .ok context →
        ("column_name" ∈ context.names ↔ ¬IsDottedMinimum name)) ∧
      ∀ (gateway : Gateway) metricsByDefault method reference body, gateway.IsSound →
        gateway.take method reference body = .transform name → Text.isBlankText name.toList = false →
        ((∃ reply, gateway.answer metricsByDefault method reference body = .ok 200 reply) ↔
            ¬IsDottedMinimum name) ∧
          (gateway.answer metricsByDefault method reference body = .failed ↔ IsDottedMinimum name) := by
  refine ⟨Column.exists_friendlyName_eq_ok_iff,
    fun _ _ _ _ _ hlabel h => Registry.mem_names_column_name_iff hlabel h, ?_⟩
  intro gateway metricsByDefault method reference body hsound htake hblank
  rw [hsound.answer_transform metricsByDefault htake]
  exact transform_answers_iff hblank

/-- A body that asks for a friendly name. -/
def bodyWithName (name : String) : List Char := "\x7b\"name\":\"".toList ++ (name.toList ++ "\"\x7d".toList)

/-- An `i` without its dot does no harm: the name is found, in a context and by a request. -/
theorem friendlyName_answers_dotless :
    let body := some (String.ofList (bodyWithName "mın(fecha)")).toUTF8
    (∃ label, Column.friendlyName "mın(fecha)" = .ok label) ∧
      (∃ context, (Registry.builtIn.build false "labels"
          (.column { label := .text "mın(fecha)", key := .text "x" }) {}).1 = .ok context ∧
        "column_name" ∈ context.names) ∧
      Gateway.http.IsSound ∧
      Gateway.http.take "POST" "/api/v1/labels/transform" body = .transform "mın(fecha)" ∧
      ∃ reply, Gateway.http.answer false "POST" "/api/v1/labels/transform" body = .ok 200 reply := by
  intro body
  have hdotless : ¬IsDottedMinimum "mın(fecha)" := by
    intro hdotted
    obtain ⟨m, n, field, ending, -, -, hname, -⟩ := hdotted
    have hsecond := congrArg (fun cs => cs[1]?) hname
    simp at hsecond
  have htake : Gateway.http.take "POST" "/api/v1/labels/transform" body = .transform "mın(fecha)" := by
    obtain ⟨name, hread, rfl⟩ := exists_readBody_eq (object transformRequest) .transform
      (bodyWithName "mın(fecha)") (fun name => name = "mın(fecha)") (by decide +kernel) (by decide +kernel)
    rw [take_post_transform, hread]
  obtain ⟨hname, hcontexts, hanswers⟩ := friendlyName_answers_iff "mın(fecha)"
  refine ⟨hname.mpr hdotless, ?_, isSound_http, htake, ?_⟩
  · obtain ⟨context, hcontext⟩ : ∃ context, (Registry.builtIn.build false "labels"
        (.column { label := .text "mın(fecha)", key := .text "x" }) {}).1 = .ok context := ⟨_, rfl⟩
    exact ⟨context, hcontext, (hcontexts _ _ _ _ context rfl hcontext).mpr hdotless⟩
  · exact (hanswers Gateway.http false _ _ body isSound_http htake (by decide +kernel)).1.mpr hdotless

/-- A dotted capital one does. -/
theorem friendlyName_dotted :
    let body := some (String.ofList (bodyWithName "MİN(x)")).toUTF8
    Column.friendlyName "MİN(x)" = .error (.unknownAggregate "MİN") ∧
      (∃ context, (Registry.builtIn.build false "labels"
          (.column { label := .text "MİN(x)", key := .text "x" }) {}).1 = .ok context ∧
        "column_name" ∉ context.names) ∧
      Gateway.http.take "POST" "/api/v1/labels/transform" body = .transform "MİN(x)" ∧
      Gateway.http.answer false "POST" "/api/v1/labels/transform" body = .failed := by
  intro body
  have hdotted : IsDottedMinimum "MİN(x)" := ⟨'M', 'N', ['x'], [], .inl rfl, .inl rfl, by decide, by decide, .inl rfl⟩
  have htake : Gateway.http.take "POST" "/api/v1/labels/transform" body = .transform "MİN(x)" := by
    obtain ⟨name, hread, rfl⟩ := exists_readBody_eq (object transformRequest) .transform
      (bodyWithName "MİN(x)") (fun name => name = "MİN(x)") (by decide +kernel) (by decide +kernel)
    rw [take_post_transform, hread]
  refine ⟨Column.friendlyName_of_isDottedMinimum hdotted, ⟨_, rfl, by decide +kernel⟩, htake, ?_⟩
  rw [isSound_http.answer_transform false htake]
  exact (transform_answers_iff (by decide +kernel)).2.mpr hdotted

end Service

end ColumnLabel
