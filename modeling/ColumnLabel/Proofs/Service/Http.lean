import ColumnLabel.Proofs.Service.Gateway
import ColumnLabel.Proofs.Text.Encoding
import ColumnLabel.Service.Http

/-!
# ColumnLabel.Proofs.Service.Http

What the label service takes from what is posted to it.

A request is addressed by its own path (`take_post`).  Its body stands for something when it is a text, the text is
JSON, and the JSON passes a check; then that is what is asked for (`readBody_of_read?`).  So the gateway is one that the
service can rely on (`isSound_http`), and the requests it takes are not nested too deep.
-/

namespace ColumnLabel.Service

variable {α : Type}

/-! ## Addresses -/

/-- A reference leads to what is found under its own path, if there is something. -/
theorem resolve?_eq_some {find? : String → Option α} {reference path : String} {a : α}
    (hpath : String.ofList (withoutLineEnd (pathOf reference)) = path) (hfind : find? path = some a) :
    resolve? find? reference = some a := by
  unfold resolve?
  show (find? (String.ofList (withoutLineEnd (pathOf reference)))).or _ = some a
  rw [hpath, hfind, Option.some_or]

/-- What a reference leads to is found under some path. -/
theorem exists_of_resolve?_eq_some {find? : String → Option α} {reference : String} {a : α}
    (h : resolve? find? reference = some a) : ∃ path, find? path = some a := by
  obtain hfound | ⟨-, hfound⟩ := Option.or_eq_some_iff.mp h
  · exact ⟨_, hfound⟩
  · exact ⟨_, hfound⟩

/-- What is posted to a resource asks for what the resource makes of it. -/
theorem call_post {path : String} {ask : Option ByteArray → Call}
    (hpath : String.ofList (withoutLineEnd (pathOf path)) = path)
    (hresource : resources.lookup path = some ⟨"POST", ask⟩) (body : Option ByteArray) :
    call "POST" path body = ask body := by
  unfold call
  rw [resolve?_eq_some hpath hresource]
  rfl

theorem take_post {path : String} {ask : Option ByteArray → Call}
    (hpath : String.ofList (withoutLineEnd (pathOf path)) = path)
    (hresource : resources.lookup path = some ⟨"POST", ask⟩) (body : Option ByteArray) :
    Gateway.http.take "POST" path body = ask body := by
  have hmethod : String.ofList (Text.upper "POST".toList) = "POST" := by decide +kernel
  unfold Gateway.http
  simp only
  rw [hmethod, call_post hpath hresource]

/-! ## Bodies -/

/-- What a body stands for by a check: the body is a text, the text is JSON, and the JSON passes the check. -/
def read? (check : Datum → Checked α) (body : ByteArray) : Option α := do
  let text ← (Text.ofBytes body).toOption
  let datum ← (Json.read text).toOption
  (check datum).toOption

theorem read?_eq_some_iff {check : Datum → Checked α} {body : ByteArray} {a : α} :
    read? check body = some a ↔
      ∃ text, Text.ofBytes body = .ok text ∧ ∃ datum, Json.read text = .ok datum ∧ check datum = .ok a := by
  simp only [read?, Option.bind_eq_bind, Option.bind_eq_some_iff, toOption_eq_some_iff]

/-- Nothing is no JSON. -/
theorem isEmpty_eq_false_of_read {body : ByteArray} {text : String} {datum : Datum}
    (htext : Text.ofBytes body = .ok text) (hread : Json.read text = .ok datum) :
    body.isEmpty = false := by
  rw [Bool.eq_false_iff]
  intro hempty
  have hsize : body.size = 0 := by simpa [ByteArray.isEmpty] using hempty
  obtain rfl : body = ByteArray.empty := ByteArray.size_eq_zero_iff.mp hsize
  have hnothing : Text.ofBytes ByteArray.empty = .ok "" := by decide +kernel
  rw [hnothing, Except.ok.injEq] at htext
  rw [← htext] at hread
  contradiction

/-- A body asks for what it stands for. -/
theorem readBody_of_read? {check : Datum → Checked α} {body : ByteArray} {a : α}
    (h : read? check body = some a) (call : α → Call) : readBody check call (some body) = call a := by
  obtain ⟨text, htext, datum, hread, hcheck⟩ := read?_eq_some_iff.mp h
  have hbody : (some body).filter (!·.isEmpty) = some body := by
    simp [isEmpty_eq_false_of_read htext hread]
  simp only [readBody, hbody, htext, hread, hcheck, Checked.within]

/-- A body asks for what passes the check, which is not nested too deep, or it is answered without the service. -/
theorem exists_of_readBody (check : Datum → Checked α) (ask : α → Call) (body : Option ByteArray) :
    (∃ d a, d.FitsJson maxDepth ∧ check d = .ok a ∧ readBody check ask body = ask a) ∨
      ∃ answer, readBody check ask body = .answered answer := by
  unfold readBody
  split
  · exact .inr ⟨_, rfl⟩
  · split
    · exact .inr ⟨_, rfl⟩
    · exact .inr ⟨_, rfl⟩
    · split
      · exact .inr ⟨_, rfl⟩
      · exact .inr ⟨_, rfl⟩
      · exact .inr ⟨_, rfl⟩
      · exact .inr ⟨_, rfl⟩
      · next d hread =>
        cases hcheck : check d with
        | ok a => exact .inl ⟨d, a, Json.fitsJson_of_read hread, hcheck, rfl⟩
        | error problems => exact .inr ⟨_, rfl⟩

/-- What holds of what a body asks for is found by reading it. -/
theorem exists_readBody_eq (check : Datum → Checked α) (ask : α → Call) (cs : List Char) (P : α → Prop)
    [DecidablePred P] (hascii : (cs.take 2).all Text.isPlainAscii = true)
    (h : (((Json.readDatum maxDepth (2 * cs.length + 2) (Json.skipBlanks cs)).toOption.filter
      fun result => Json.skipBlanks result.2 = []).bind fun result =>
        (check result.1).toOption).any (fun a => decide (P a)) = true) :
    ∃ a, readBody check ask (some (String.ofList cs).toUTF8) = ask a ∧ P a := by
  obtain ⟨a, ha, hP⟩ := (Option.any_eq_true _ _).mp h
  obtain ⟨result, hresult, hcheck⟩ := Option.bind_eq_some_iff.mp ha
  obtain ⟨hread, hrest⟩ := Option.filter_eq_some_iff.mp hresult
  have hdatum : Json.read (String.ofList cs) = .ok result.1 := by
    simp only [Json.read, String.toList_ofList, toOption_eq_some_iff.mp hread]
    rw [if_pos (of_decide_eq_true hrest)]
  have hbody : read? check (String.ofList cs).toUTF8 = some a :=
    read?_eq_some_iff.mpr ⟨_, Text.ofBytes_toUTF8 hascii, result.1, hdatum, toOption_eq_some_iff.mp hcheck⟩
  exact ⟨a, readBody_of_read? hbody ask, of_decide_eq_true hP⟩

/-! ## Requests -/

/-- What is posted to the address of labels is read as a request for one. -/
theorem take_post_render (body : Option ByteArray) :
    Gateway.http.take "POST" "/api/v1/labels/render" body = readBody (object renderRequest) .render body := by
  have hpath : String.ofList (withoutLineEnd (pathOf "/api/v1/labels/render")) =
      "/api/v1/labels/render" := by decide +kernel
  exact take_post hpath (by simp [resources, List.lookup_cons]) body

/-- What is posted to the address of names is read as a request for one. -/
theorem take_post_transform (body : Option ByteArray) :
    Gateway.http.take "POST" "/api/v1/labels/transform" body = readBody (object transformRequest) .transform body := by
  have hpath : String.ofList (withoutLineEnd (pathOf "/api/v1/labels/transform")) =
      "/api/v1/labels/transform" := by decide +kernel
  exact take_post hpath (by simp [resources, List.lookup_cons]) body

/-- A resource asks for a label only when its body is JSON that passes the checks. -/
theorem exists_of_call_eq_render {path : String} {resource : Resource} (hresource : (path, resource) ∈ resources)
    {body : Option ByteArray} {request : RenderRequest} (h : resource.call body = .render request) :
    ∃ r, (Datum.record r).FitsJson maxDepth ∧ renderRequest r = .ok request := by
  simp only [resources, List.mem_append, List.mem_cons, List.not_mem_nil, or_false, Prod.mk.injEq,
    List.mem_map] at hresource
  obtain (⟨-, rfl⟩ | ⟨-, rfl⟩ | ⟨-, rfl⟩ | ⟨-, rfl⟩) | ⟨_, _, -, rfl⟩ := hresource
  · contradiction
  · contradiction
  · obtain ⟨d, _, hd, hcheck, hask⟩ | ⟨answer, hanswer⟩ := exists_of_readBody (object renderRequest) .render body
    · obtain rfl := Call.render.inj (hask.symm.trans h)
      cases d with
      | record r => exact ⟨r, hd, hcheck⟩
      | _ => contradiction
    · have hrefused := hanswer.symm.trans h
      contradiction
  · obtain ⟨_, _, _, _, hask⟩ | ⟨answer, hanswer⟩ :=
      exists_of_readBody (object transformRequest) .transform body
    · have hother := hask.symm.trans h
      contradiction
    · have hrefused := hanswer.symm.trans h
      contradiction
  · contradiction

/-- A request for a label is made from JSON that is not nested too deep. -/
theorem exists_of_take_eq_render {method reference : String} {body : Option ByteArray} {request : RenderRequest}
    (h : Gateway.http.take method reference body = .render request) :
    ∃ r, (Datum.record r).FitsJson maxDepth ∧ renderRequest r = .ok request := by
  unfold Gateway.http call at h
  simp only at h
  split at h
  · contradiction
  · next resource hresource =>
    obtain ⟨path, hpath⟩ := exists_of_resolve?_eq_some hresource
    obtain ⟨_, _, hresources, _⟩ := List.lookup_eq_some_iff.mp hpath
    split at h
    · exact exists_of_call_eq_render (hresources ▸ List.mem_append_right _ List.mem_cons_self) h
    · contradiction

/-- **The gateway.**  The service can rely on it. -/
theorem isSound_http : Gateway.http.IsSound where
  isJson h := by
    obtain ⟨r, hr, hrequest⟩ := exists_of_take_eq_render h
    exact isJson_of_renderRequest hr.1 hrequest
  deliver_ok _ _ _ := rfl
  deliver_failed := rfl

/-- The requests it takes are not nested too deep. -/
theorem isShallow_of_take_http {method reference : String} {body : Option ByteArray} {request : RenderRequest}
    (h : Gateway.http.take method reference body = .render request) : request.IsShallow := by
  obtain ⟨r, hr, hrequest⟩ := exists_of_take_eq_render h
  exact isShallow_of_renderRequest hr hrequest

end ColumnLabel.Service
