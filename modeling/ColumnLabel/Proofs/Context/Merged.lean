import ColumnLabel.Proofs.Context.Named
import Mathlib.Data.List.Nodup

/-!
# ColumnLabel.Proofs.Context.Merged

How the variables of a registry and auxiliary values come together in one context.

The names of the registry are reserved, whether their variables have something to say or not.  So a context is
made of what the variables say and of the auxiliary values whose names are not reserved (`build_eq_ok_iff`).
The main statement says what is in it (`exists_merges_of_build_eq_ok`): which names, in which order and with
which values, and that an extractor which gives up costs its own name and no other one.
-/

namespace ColumnLabel

/-! ## What is given -/

/-- What a variable says about a column, if it says something. -/
def Variable.said? (v : Variable) (facts : ColumnFacts) : Option Datum :=
  match v.extract facts with
  | .ok d => d
  | .error _ => none

theorem Variable.said?_eq_some_iff {v : Variable} {facts : ColumnFacts} {d : Datum} :
    v.said? facts = some d ↔ v.extract facts = .ok (some d) := by
  rw [said?]
  cases v.extract facts <;> simp

/-- An entry of the auxiliary values has a name, which is the plain text of its key. -/
def IsNamed (e : Datum × Datum) (n : String × Datum) : Prop := e.1.plain = .ok n.1.toList ∧ e.2 = n.2

namespace Registry

/-- What the variables say about a column, each under its name. -/
def sayings (registry : Registry) (facts : ColumnFacts) : List (String × Datum) :=
  registry.toList.filterMap fun v => (v.said? facts).map fun d => (v.name, d)

/-- The named data whose names are not reserved. -/
def unreserved (registry : Registry) (named : List (String × Datum)) : List (String × Datum) :=
  named.filter fun n => !registry.isReserved n.1

theorem extractAll_fst (logger : String) (facts : ColumnFacts) (vs : List Variable) :
    (extractAll logger facts vs).1 = vs.filterMap fun v => (v.said? facts).map fun d => (v.name, d) := by
  induction vs with
  | nil => rfl
  | cons v vs ih =>
      rw [extractAll, List.filterMap_cons, ← ih, Variable.said?]
      rcases v.extract facts with fault | none | d <;> rfl

theorem auxiliaryValues_cons (registry : Registry) (logger : String) (key d : Datum)
    (es : List (Datum × Datum)) :
    (registry.auxiliaryValues logger ((key, d) :: es)).1 = do
      let cs ← key.plain
      if registry.isReserved (String.ofList cs) then (registry.auxiliaryValues logger es).1
      else do
        let v ← Value.ofDatum d
        let rest ← (registry.auxiliaryValues logger es).1
        return (String.ofList cs, v) :: rest := by
  rw [auxiliaryValues]
  cases key.plain with
  | error fault => rfl
  | ok cs =>
      by_cases hreserved : registry.isReserved (String.ofList cs) = true
      · simp [hreserved]
      · cases Value.ofDatum d with
        | error fault => simp [hreserved]
        | ok v =>
            cases hrest : (registry.auxiliaryValues logger es).1 with
            | error fault => simp [hreserved, hrest, Except.map]
            | ok rest => simp [hreserved, hrest, Except.map, pure, Except.pure]

/-- The auxiliary values are the wrapped data whose names are not reserved. -/
theorem auxiliaryValues_eq_ok_iff {registry : Registry} {logger : String} {es : List (Datum × Datum)}
    {values : List (String × Value)} :
    (registry.auxiliaryValues logger es).1 = .ok values ↔
      ∃ named, List.Forall₂ IsNamed es named ∧ wrapAll (registry.unreserved named) = .ok values := by
  induction es generalizing values with
  | nil => simp [auxiliaryValues, unreserved, wrapAll]
  | cons e es ih =>
      obtain ⟨key, d⟩ := e
      simp only [auxiliaryValues_cons, bind_eq_ok_iff, List.forall₂_cons_left_iff]
      constructor
      · intro h
        obtain ⟨cs, hkey, h⟩ := h
        have hnamed : IsNamed (key, d) (String.ofList cs, d) := ⟨by simp [hkey], rfl⟩
        split at h
        · next hreserved =>
          obtain ⟨named, hall, hwrap⟩ := ih.mp h
          exact ⟨_, ⟨_, named, hnamed, hall, rfl⟩, by simpa [unreserved, hreserved] using hwrap⟩
        · next hreserved =>
          simp only [bind_eq_ok_iff, pure_eq_ok_iff] at h
          obtain ⟨v, hv, rest, hrest, rfl⟩ := h
          obtain ⟨named, hall, hwrap⟩ := ih.mp hrest
          refine ⟨_, ⟨_, named, hnamed, hall, rfl⟩, ?_⟩
          rw [unreserved, List.filter_cons_of_pos (by simpa using hreserved), wrapAll_cons_eq_ok_iff]
          exact ⟨v, rest, hv, hwrap, rfl⟩
      · intro h
        obtain ⟨_, ⟨⟨name, _⟩, named, ⟨hkey, rfl⟩, hall, rfl⟩, hwrap⟩ := h
        refine ⟨name.toList, hkey, ?_⟩
        rw [String.ofList_toList]
        split
        · next hreserved => exact ih.mpr ⟨named, hall, by simpa [unreserved, hreserved] using hwrap⟩
        · next hreserved =>
          rw [unreserved, List.filter_cons_of_pos (by simpa using hreserved), wrapAll_cons_eq_ok_iff]
            at hwrap
          obtain ⟨v, rest, hv, hrest, rfl⟩ := hwrap
          simp only [bind_eq_ok_iff, pure_eq_ok_iff]
          exact ⟨v, hv, rest, ih.mpr ⟨named, hall, hrest⟩, rfl⟩

/-- **Building.**  A context is made of what the variables say and of the auxiliary values whose names are
not reserved, given in this order. -/
theorem build_eq_ok_iff {registry : Registry} {metricsByDefault : Bool} {logger : String}
    {source : ColumnSource} {input : BuildInput} {context : Context} :
    (registry.build metricsByDefault logger source input).1 = .ok context ↔
      ∃ facts es named values, ColumnFacts.gather metricsByDefault source input = .ok facts ∧
        auxiliaryEntries input.auxiliary = .ok es ∧ List.Forall₂ IsNamed es named ∧
        wrapAll (registry.sayings facts ++ registry.unreserved named) = .ok values ∧
        Context.ofList values = context := by
  rw [build]
  cases hfacts : ColumnFacts.gather metricsByDefault source input with
  | error fault => simp
  | ok facts =>
      cases hes : auxiliaryEntries input.auxiliary with
      | error fault => simp
      | ok es =>
          simp only [extractAll_fst, bind_eq_ok_iff, pure_eq_ok_iff, auxiliaryValues_eq_ok_iff,
            wrapAll_append]
          constructor
          · intro h
            obtain ⟨values, ⟨named, hnamed, hvalues⟩, own, hown, rfl⟩ := h
            exact ⟨facts, es, named, own ++ values, rfl, rfl, hnamed,
              ⟨own, hown, values, hvalues, rfl⟩, rfl⟩
          · intro h
            obtain ⟨_, _, named, _, hfacts', hes', hnamed, ⟨own, hown, values, hvalues, rfl⟩, rfl⟩ := h
            injection hfacts' with hfacts'
            injection hes' with hes'
            subst hfacts' hes'
            exact ⟨values, ⟨named, hnamed, hvalues⟩, own, hown, rfl⟩

/-! ## Merging -/

theorem mem_sayings_iff {registry : Registry} {facts : ColumnFacts} {e : String × Datum} :
    e ∈ registry.sayings facts ↔ ∃ v ∈ registry.toList, v.said? facts = some e.2 ∧ v.name = e.1 := by
  obtain ⟨name, d⟩ := e
  simp [sayings, and_comm]

theorem map_fst_sayings (registry : Registry) (facts : ColumnFacts) :
    (registry.sayings facts).map (·.1) =
      (registry.toList.filter fun v => (v.said? facts).isSome).map (·.name) := by
  rw [sayings]
  induction registry.toList with
  | nil => rfl
  | cons v vs ih => cases hsaid : v.said? facts <;> simp [hsaid, ih]

theorem nodup_sayings (registry : Registry) (facts : ColumnFacts) :
    ((registry.sayings facts).map (·.1)).Nodup := by
  rw [map_fst_sayings]
  exact registry.nodup.sublist (List.filter_sublist.map _)

theorem isReserved_iff {registry : Registry} {name : String} :
    registry.isReserved name = true ↔ ∃ v ∈ registry.toList, v.name = name := by
  simp [isReserved, names]

theorem not_isReserved_of_mem_unreserved {registry : Registry} {named : List (String × Datum)}
    {e : String × Datum} (h : e ∈ registry.unreserved named) : registry.isReserved e.1 = false := by
  simpa using (List.mem_filter.mp h).2

theorem isReserved_of_mem_sayings {registry : Registry} {facts : ColumnFacts} {e : String × Datum}
    (h : e ∈ registry.sayings facts) : registry.isReserved e.1 = true := by
  obtain ⟨v, hv, _, hname⟩ := mem_sayings_iff.mp h
  exact isReserved_iff.mpr ⟨v, hv, hname⟩

/-- How the variables of a registry and auxiliary values, given as named data, come together in a
context. -/
structure Merges (registry : Registry) (facts : ColumnFacts) (named : List (String × Datum))
    (context : Context) : Prop where
  /-- First come the variables that say something, in the order of the registry, then the names of
  auxiliary values that are not reserved, each where it comes first. -/
  names_eq : context.names =
    (registry.toList.filter fun v => (v.said? facts).isSome).map (·.name) ++
      ((named.map (·.1)).filter fun name => !registry.isReserved name).eraseDups
  /-- No name comes twice. -/
  nodup : context.names.Nodup
  /-- A variable has the value that it says. -/
  own : ∀ v ∈ registry.toList, ∀ d, v.said? facts = some d →
    ∃ w, Value.ofDatum d = .ok w ∧ context.get? v.name = some w
  /-- A name that is not reserved has the last auxiliary value that is given under it. -/
  auxiliary : ∀ front name d rest, named = front ++ (name, d) :: rest → (∀ n ∈ rest, n.1 ≠ name) →
    registry.isReserved name = false → ∃ w, Value.ofDatum d = .ok w ∧ context.get? name = some w
  /-- A variable that says nothing is not there, whatever the auxiliary values are. -/
  silent : ∀ v ∈ registry.toList, v.said? facts = none → context.get? v.name = none

variable {registry : Registry} {facts : ColumnFacts} {named : List (String × Datum)}
  {values : List (String × Value)}

theorem names_ofList_of_wrapAll
    (h : wrapAll (registry.sayings facts ++ registry.unreserved named) = .ok values) :
    (Context.ofList values).names =
      (registry.toList.filter fun v => (v.said? facts).isSome).map (·.name) ++
        ((named.map (·.1)).filter fun name => !registry.isReserved name).eraseDups := by
  have hapart : ((registry.unreserved named).map (·.1)).removeAll ((registry.sayings facts).map (·.1)) =
      (named.map (·.1)).filter fun name => !registry.isReserved name := by
    rw [unreserved, List.filter_map]
    refine List.filter_eq_self.mpr fun name hname => ?_
    obtain ⟨e, he, rfl⟩ := List.mem_map.mp hname
    have hfree : e.1 ∉ (registry.sayings facts).map (·.1) := by
      intro hsaid
      obtain ⟨e', he', heq⟩ := List.mem_map.mp hsaid
      have hreserved := isReserved_of_mem_sayings he'
      rw [heq, not_isReserved_of_mem_unreserved he] at hreserved
      contradiction
    simpa using hfree
  rw [Context.names_ofList, map_fst_eq_of_wrapAll h, List.map_append, List.eraseDups_append, hapart,
    eraseDups_eq_self (nodup_sayings registry facts), map_fst_sayings]

theorem merges_ofList (h : wrapAll (registry.sayings facts ++ registry.unreserved named) = .ok values) :
    registry.Merges facts named (Context.ofList values) where
  names_eq := names_ofList_of_wrapAll h
  nodup := (Context.ofList values).nodup
  own := by
    intro v hv d hd
    have hmem : (v.name, d) ∈ registry.sayings facts := mem_sayings_iff.mpr ⟨v, hv, hd, rfl⟩
    obtain ⟨front, rest, heq⟩ := List.append_of_mem hmem
    have hnodup := nodup_sayings registry facts
    rw [heq, List.map_append, List.map_cons] at hnodup
    rw [heq, List.append_assoc, List.cons_append] at h
    refine exists_get?_ofList_eq_some h fun e he hname => ?_
    obtain he | he := List.mem_append.mp he
    · have hnot := (List.nodup_cons.mp (List.nodup_append.mp hnodup).2.1).1
      exact hnot (List.mem_map.mpr ⟨e, he, hname⟩)
    · have hfree := not_isReserved_of_mem_unreserved he
      rw [hname, isReserved_iff.mpr ⟨v, hv, rfl⟩] at hfree
      contradiction
  auxiliary := by
    intro front name d rest heq hrest hfree
    rw [heq, unreserved, List.filter_append, List.filter_cons_of_pos (by simpa using hfree),
      ← List.append_assoc] at h
    refine exists_get?_ofList_eq_some h fun e he => ?_
    exact hrest e (List.mem_filter.mp he).1
  silent := by
    intro v hv hsilent
    rw [Context.get?_eq_none_iff, names_ofList_of_wrapAll h, List.mem_append, not_or]
    constructor
    · intro hmem
      obtain ⟨v', hv', hname⟩ := List.mem_map.mp hmem
      obtain ⟨hv', hsaid⟩ := List.mem_filter.mp hv'
      obtain rfl : v' = v := List.inj_on_of_nodup_map registry.nodup hv' hv hname
      rw [hsilent] at hsaid
      contradiction
    · simp [isReserved_iff.mpr ⟨v, hv, rfl⟩]

/-- A variable is there exactly when it says something. -/
theorem Merges.mem_names_iff {context : Context} (h : registry.Merges facts named context) {v : Variable}
    (hv : v ∈ registry.toList) : v.name ∈ context.names ↔ (v.said? facts).isSome = true := by
  rw [← not_iff_not, ← Context.get?_eq_none_iff, Option.not_isSome_iff_eq_none]
  constructor
  · intro hget
    rw [Option.eq_none_iff_forall_ne_some]
    intro d hd
    obtain ⟨w, _, hw⟩ := h.own v hv d hd
    rw [hget] at hw
    contradiction
  · exact h.silent v hv

/-! ## One extractor -/

theorem map_name_withExtractor (vs : List Variable) (name : String) (extract : Extractor) :
    (vs.map fun v => if v.name = name then { v with extract } else v).map (·.name) = vs.map (·.name) := by
  rw [List.map_map]
  refine List.map_congr_left fun v _ => ?_
  by_cases hname : v.name = name <;> simp [hname]

/-- The registry with another extractor for one of its names. -/
def withExtractor (registry : Registry) (name : String) (extract : Extractor) : Registry where
  toList := registry.toList.map fun v => if v.name = name then { v with extract } else v
  nodup := by
    rw [map_name_withExtractor]
    exact registry.nodup

theorem names_withExtractor (registry : Registry) (name : String) (extract : Extractor) :
    (registry.withExtractor name extract).names = registry.names :=
  map_name_withExtractor registry.toList name extract

/-- A variable that gives up is missing among what the variables say, and nothing else is. -/
theorem sayings_withExtractor_error (registry : Registry) (name : String) (fault : Fault)
    (facts : ColumnFacts) :
    (registry.withExtractor name fun _ => .error fault).sayings facts =
      (registry.sayings facts).filter fun e => e.1 != name := by
  simp only [sayings, withExtractor]
  induction registry.toList with
  | nil => rfl
  | cons v vs ih =>
      rw [List.map_cons, List.filterMap_cons, List.filterMap_cons, ih]
      by_cases hname : v.name = name
      · cases v.said? facts <;> simp [hname, Variable.said?]
      · cases hsaid : v.said? facts <;> simp [hname, hsaid]

theorem unreserved_withExtractor (registry : Registry) (name : String) (extract : Extractor)
    (named : List (String × Datum)) :
    (registry.withExtractor name extract).unreserved named = registry.unreserved named := by
  simp only [unreserved, isReserved, names_withExtractor]

/-- When one extractor gives up instead, the context is there, and it has lost the name of that variable
and nothing else. -/
theorem exists_build_withExtractor_error {metricsByDefault : Bool} {logger : String}
    {source : ColumnSource} {input : BuildInput} {context : Context}
    (h : (registry.build metricsByDefault logger source input).1 = .ok context) (name : String)
    (hname : registry.isReserved name = true) (fault : Fault) :
    ∃ context',
      ((registry.withExtractor name fun _ => .error fault).build metricsByDefault logger source input).1 =
        .ok context' ∧
      context'.entries = context.entries.filter fun e => e.1 != name := by
  obtain ⟨facts, es, named, values, hfacts, hes, hnamed, hwrap, rfl⟩ := build_eq_ok_iff.mp h
  refine ⟨_, build_eq_ok_iff.mpr ⟨facts, es, named, _, hfacts, hes, hnamed, ?_, rfl⟩,
    Context.entries_ofList_filter values name⟩
  have hfree : (registry.unreserved named).filter (fun e => e.1 != name) = registry.unreserved named := by
    refine List.filter_eq_self.mpr fun e he => ?_
    have hne : e.1 ≠ name := by
      rintro rfl
      rw [not_isReserved_of_mem_unreserved he] at hname
      contradiction
    simpa using hne
  rw [sayings_withExtractor_error, unreserved_withExtractor, ← hfree, ← List.filter_append]
  exact wrapAll_filter hwrap fun n => n != name

/-- **Merging.**  A context that is built comes from the facts about the column and the auxiliary values by
merging them.  When an extractor gives up instead, the context is built all the same, and only the name of
that variable is gone. -/
theorem exists_merges_of_build_eq_ok {metricsByDefault : Bool} {logger : String} {source : ColumnSource}
    {input : BuildInput} {context : Context}
    (h : (registry.build metricsByDefault logger source input).1 = .ok context) :
    ∃ facts es named, ColumnFacts.gather metricsByDefault source input = .ok facts ∧
      auxiliaryEntries input.auxiliary = .ok es ∧ List.Forall₂ IsNamed es named ∧
      registry.Merges facts named context ∧
      ∀ name, registry.isReserved name = true → ∀ fault, ∃ context',
        ((registry.withExtractor name fun _ => .error fault).build metricsByDefault logger source input).1 =
          .ok context' ∧
        context'.entries = context.entries.filter fun e => e.1 != name := by
  have hwithout := exists_build_withExtractor_error h
  obtain ⟨facts, es, named, values, hfacts, hes, hnamed, hwrap, rfl⟩ := build_eq_ok_iff.mp h
  exact ⟨facts, es, named, hfacts, hes, hnamed, merges_ofList hwrap, hwithout⟩

/-- A variable that says something, one that gives up and one that has nothing to say. -/
def threeVariables : Registry where
  toList := [⟨"a", .identity, "", fun _ => .ok (some (.text "seven"))⟩,
    ⟨"b", .rows, "", fun _ => .error .circular⟩, ⟨"c", .rows, "", fun _ => .ok none⟩]
  nodup := by decide

/-- A column of which only the label is known. -/
def bareColumn : ColumnSource := .column { label := .text "x", key := .text "x" }

/-- Auxiliary values for the names of these variables, and two for another name. -/
def fiveValues : BuildInput where
  auxiliary := .record (.entries [(.text "c", .text "x"), (.int 1, .text "one"), (.text "a", .text "y"),
    (.text "b", .none), (.text "1", .bool true)])

/-- What comes of them. -/
def mergedValues : Context := .ofList [("a", .text "seven"), ("1", .text "one"), ("1", .bool true)]

theorem build_threeVariables :
    (threeVariables.build false "labels" bareColumn fiveValues).1 = .ok mergedValues := by
  have hone : (Datum.int 1).plain = .ok "1".toList := by
    rw [Datum.plain, Datum.plainWithin, Datum.writtenWithin, writeInt, if_pos (by decide +kernel)]
    · rfl
    all_goals simp
  refine build_eq_ok_iff.mpr ⟨_, _, [("c", .text "x"), ("1", .text "one"), ("a", .text "y"), ("b", .none),
    ("1", .bool true)], _, rfl, rfl, ?_, rfl, rfl⟩
  exact .cons ⟨rfl, rfl⟩ (.cons ⟨hone, rfl⟩ (.cons ⟨rfl, rfl⟩ (.cons ⟨rfl, rfl⟩ (.cons ⟨rfl, rfl⟩ .nil))))

theorem exists_merges_of_build_eq_ok_three_variables :
    (threeVariables.build false "labels" bareColumn fiveValues).1 = .ok mergedValues ∧
    ∃ facts es named, ColumnFacts.gather false bareColumn fiveValues = .ok facts ∧
      auxiliaryEntries fiveValues.auxiliary = .ok es ∧ List.Forall₂ IsNamed es named ∧
      threeVariables.Merges facts named mergedValues ∧
      ∀ fault, ∃ context',
        ((threeVariables.withExtractor "a" fun _ => .error fault).build false "labels" bareColumn
          fiveValues).1 = .ok context' ∧
        context'.entries = [("1", .bool true)] := by
  obtain ⟨facts, es, named, hfacts, hes, hnamed, hmerges, hwithout⟩ :=
    exists_merges_of_build_eq_ok build_threeVariables
  exact ⟨build_threeVariables, facts, es, named, hfacts, hes, hnamed, hmerges, hwithout "a" (by decide)⟩

end Registry

end ColumnLabel
