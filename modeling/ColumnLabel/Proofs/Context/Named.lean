import ColumnLabel.Context.Build
import ColumnLabel.Proofs.Context.Wrapped
import Mathlib.Data.List.Forall2
import Mathlib.Data.List.Induction

/-!
# ColumnLabel.Proofs.Context.Named

Contexts that are made of named values, given one after the other.

The names come in the order in which they are first given (`names_ofList`), each with the value that is given
last (`get?_ofList`), and leaving a name out changes nothing for the others (`entries_ofList_filter`).  Named
data are wrapped first, each by itself (`wrapAll`), so the last datum that is given under a name is the one
that its value is made from (`exists_get?_ofList_eq_some`).
-/

namespace ColumnLabel

theorem exists_mem_of_forall₂ {α β : Type} {R : α → β → Prop} {as : List α} {bs : List β}
    (h : List.Forall₂ R as bs) {b : β} (hb : b ∈ bs) : ∃ a ∈ as, R a b := by
  induction h with
  | nil => contradiction
  | cons hR _ ih =>
      obtain rfl | hb := List.mem_cons.mp hb
      · exact ⟨_, List.mem_cons_self, hR⟩
      · obtain ⟨a, ha, hR⟩ := ih hb
        exact ⟨a, List.mem_cons_of_mem _ ha, hR⟩

theorem eraseDups_eq_self {names : List String} (h : names.Nodup) : names.eraseDups = names := by
  induction names with
  | nil => rfl
  | cons name names ih =>
      obtain ⟨hname, hrest⟩ := List.nodup_cons.mp h
      rw [List.eraseDups_cons, List.filter_eq_self.mpr, ih hrest]
      intro other hother
      have hne : other ≠ name := fun heq => hname (heq ▸ hother)
      simpa using hne

theorem eraseDups_concat {α : Type} [DecidableEq α] (as : List α) (a : α) :
    (as ++ [a]).eraseDups = if a ∈ as then as.eraseDups else as.eraseDups ++ [a] := by
  rw [List.eraseDups_append]
  by_cases ha : a ∈ as <;> simp [List.removeAll, ha, List.eraseDups_cons]

theorem nodup_eraseDups {α : Type} [DecidableEq α] (as : List α) : as.eraseDups.Nodup := by
  induction as using List.reverseRecOn with
  | nil => exact List.nodup_nil
  | append_singleton as a ih =>
      rw [eraseDups_concat]
      split
      · exact ih
      · next ha =>
          refine List.nodup_append.mpr ⟨ih, by simp, ?_⟩
          intro b hb _ ha' heq
          rw [List.mem_singleton.mp ha'] at heq
          exact ha (List.mem_eraseDups.mp (heq ▸ hb))

/-! ## Contexts from named values -/

namespace Context

theorem ofList_append_singleton (values : List (String × Value)) (name : String) (value : Value) :
    ofList (values ++ [(name, value)]) = (ofList values).set name value := by
  simp [ofList]

/-- A name comes where it is first given. -/
theorem names_ofList (values : List (String × Value)) :
    (ofList values).names = (values.map (·.1)).eraseDups := by
  induction values using List.reverseRecOn with
  | nil => rfl
  | append_singleton values e ih =>
      obtain ⟨name, value⟩ := e
      rw [ofList_append_singleton, names_set, ih, List.map_append, List.map_singleton, eraseDups_concat]
      simp only [List.mem_eraseDups]

/-- A name has the value that is given last. -/
theorem get?_ofList (values : List (String × Value)) (name : String) :
    (ofList values).get? name = values.reverse.lookup name := by
  induction values using List.reverseRecOn with
  | nil => rfl
  | append_singleton values e ih =>
      obtain ⟨other, value⟩ := e
      rw [ofList_append_singleton, get?_set, ih, List.reverse_append]
      by_cases hname : other = name
      · simp [hname]
      · have hbeq : (name == other) = false := beq_eq_false_iff_ne.mpr (Ne.symm hname)
        simp [hname, List.lookup_cons, hbeq]

theorem get?_eq_none_iff {c : Context} {name : String} : c.get? name = none ↔ name ∉ c.names := by
  simp only [get?, names, Option.map_eq_none_iff, List.find?_eq_none, List.mem_map, decide_eq_true_eq,
    not_exists, not_and]

/-- What holds of all values given holds of all values of the context. -/
theorem forall_ofList {P : Value → Prop} {values : List (String × Value)} (h : ∀ e ∈ values, P e.2) :
    ∀ e ∈ (ofList values).entries, P e.2 := by
  induction values using List.reverseRecOn with
  | nil => simp [ofList, empty]
  | append_singleton values e ih =>
      rw [List.forall_mem_append, List.forall_mem_singleton] at h
      rw [ofList_append_singleton]
      exact forall_set (ih h.1) e.1 h.2

theorem filter_setEntry (name other : String) (value : Value) (es : List (String × Value)) :
    (setEntry name value es).filter (fun e => e.1 != other) =
      if name = other then es.filter (fun e => e.1 != other)
      else setEntry name value (es.filter fun e => e.1 != other) := by
  induction es with
  | nil => by_cases hname : name = other <;> simp [setEntry, hname]
  | cons e es ih =>
      obtain ⟨n, v⟩ := e
      by_cases hn : n = name
      · subst hn
        by_cases hname : n = other <;> simp [setEntry, hname]
      · by_cases hname : name = other
        · subst hname
          simpa [setEntry, hn] using ih
        · by_cases hother : n = other
          · subst hother
            simpa [setEntry, hn, hname] using ih
          · simpa [setEntry, hn, hname, hother] using ih

/-- Leaving a name out changes nothing else. -/
theorem entries_ofList_filter (values : List (String × Value)) (other : String) :
    (ofList (values.filter fun e => e.1 != other)).entries =
      (ofList values).entries.filter fun e => e.1 != other := by
  induction values using List.reverseRecOn with
  | nil => rfl
  | append_singleton values e ih =>
      obtain ⟨name, value⟩ := e
      rw [ofList_append_singleton, set, filter_setEntry, ← ih, List.filter_append]
      by_cases hname : name = other
      · simp [hname]
      · simp [hname, ofList_append_singleton, set]

end Context

/-! ## Wrapping -/

theorem wrapAll_cons_eq_ok_iff {name : String} {d : Datum} {es : List (String × Datum)}
    {values : List (String × Value)} :
    wrapAll ((name, d) :: es) = .ok values ↔
      ∃ v rest, Value.ofDatum d = .ok v ∧ wrapAll es = .ok rest ∧ (name, v) :: rest = values := by
  simp only [wrapAll, bind_eq_ok_iff, pure_eq_ok_iff, exists_and_left]

theorem wrapAll_append (es es' : List (String × Datum)) :
    wrapAll (es ++ es') = do return (← wrapAll es) ++ (← wrapAll es') := by
  induction es with
  | nil => simp [wrapAll]
  | cons e es ih => simp [wrapAll, ih]

/-- Each named value is a named datum, wrapped. -/
theorem wrapAll_eq_ok_iff {es : List (String × Datum)} {values : List (String × Value)} :
    wrapAll es = .ok values ↔
      List.Forall₂ (fun e v => e.1 = v.1 ∧ Value.ofDatum e.2 = .ok v.2) es values := by
  induction es generalizing values with
  | nil => rw [wrapAll, Except.ok.injEq, List.forall₂_nil_left_iff, eq_comm]
  | cons e es ih =>
      rw [wrapAll_cons_eq_ok_iff, List.forall₂_cons_left_iff]
      constructor
      · intro h
        obtain ⟨v, rest, hv, hrest, rfl⟩ := h
        exact ⟨_, rest, ⟨rfl, hv⟩, ih.mp hrest, rfl⟩
      · intro h
        obtain ⟨⟨_, v⟩, rest, ⟨rfl, hv⟩, hrest, rfl⟩ := h
        exact ⟨v, rest, hv, ih.mpr hrest, rfl⟩

theorem map_fst_eq_of_wrapAll {es : List (String × Datum)} {values : List (String × Value)}
    (h : wrapAll es = .ok values) : values.map (·.1) = es.map (·.1) := by
  have hnames : List.Forall₂ (· = ·) (es.map (·.1)) (values.map (·.1)) :=
    List.rel_map (fun _ _ hwrap => hwrap.1) (wrapAll_eq_ok_iff.mp h)
  rw [List.forall₂_eq_eq_eq] at hnames
  exact hnames.symm

theorem exists_of_mem_wrapAll {es : List (String × Datum)} {values : List (String × Value)}
    (h : wrapAll es = .ok values) {v : String × Value} (hv : v ∈ values) :
    ∃ e ∈ es, Value.ofDatum e.2 = .ok v.2 := by
  obtain ⟨e, he, _, hwrap⟩ := exists_mem_of_forall₂ (wrapAll_eq_ok_iff.mp h) hv
  exact ⟨e, he, hwrap⟩

theorem wrapAll_filter {es : List (String × Datum)} {values : List (String × Value)}
    (h : wrapAll es = .ok values) (p : String → Bool) :
    wrapAll (es.filter fun e => p e.1) = .ok (values.filter fun e => p e.1) := by
  rw [wrapAll_eq_ok_iff] at h ⊢
  refine List.rel_filter (fun e v hwrap => ?_) h
  show p e.1 = true ↔ p v.1 = true
  rw [hwrap.1]

/-- The last datum that is given under a name is wrapped to the value of the name. -/
theorem exists_get?_ofList_eq_some {front rest : List (String × Datum)} {name : String} {d : Datum}
    {values : List (String × Value)} (hwrap : wrapAll (front ++ (name, d) :: rest) = .ok values)
    (hrest : ∀ e ∈ rest, e.1 ≠ name) :
    ∃ w, Value.ofDatum d = .ok w ∧ (Context.ofList values).get? name = some w := by
  rw [wrapAll_append, bind_eq_ok_iff] at hwrap
  obtain ⟨before, _, hwrap⟩ := hwrap
  rw [bind_eq_ok_iff] at hwrap
  obtain ⟨_, hwrap, heq⟩ := hwrap
  obtain ⟨w, after, hw, hafter, rfl⟩ := wrapAll_cons_eq_ok_iff.mp hwrap
  obtain rfl := pure_eq_ok_iff.mp heq
  refine ⟨w, hw, ?_⟩
  rw [Context.get?_ofList, List.lookup_eq_some_iff]
  refine ⟨after.reverse, before.reverse, by simp, ?_⟩
  intro e he
  have hname : e.1 ∈ rest.map (·.1) := by
    rw [← map_fst_eq_of_wrapAll hafter]
    exact List.mem_map_of_mem (List.mem_reverse.mp he)
  obtain ⟨e', he', heq⟩ := List.mem_map.mp hname
  have hne := hrest e' he'
  rw [heq] at hne
  simpa using hne.symm

end ColumnLabel
