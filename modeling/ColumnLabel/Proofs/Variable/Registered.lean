import ColumnLabel.Proofs.Context.Named
import ColumnLabel.Variable.BuiltIn
import Mathlib.Data.Finset.Card

/-!
# ColumnLabel.Proofs.Variable.Registered

What a registry answers after registrations and questions in any order.

Everything that it answers is settled by the variables that were handed in for registration: it keeps the first
one of each name, in order (`toList_run`), refuses the others and stays as it was.  Its groups are the kept
variables of each category (`byCategory_eq`), so they part the variables and lose none of them
(`flatMap_byCategory_perm`).
-/

namespace ColumnLabel

namespace Registry

/-! ## Requests -/

/-- What can be asked of a registry. -/
inductive Request where
  | register (v : Variable)
  | get (name : String)
  | isReserved (name : String)
  | all
  | byCategory
  | size

/-- The variable that is handed in for registration, if one is. -/
def Request.variable? : Request → Option Variable
  | .register v => some v
  | _ => none

/-- What a registry answers. -/
inductive Answer where
  | registered
  | refused (fault : Fault)
  | variable (v : Option Variable)
  | truth (b : Bool)
  | variables (vs : List Variable)
  | groups (groups : List (Category × List Variable))
  | number (n : Nat)

/-- The registry after a request, and its answer. -/
def serve (r : Registry) : Request → Registry × Answer
  | .register v =>
    match r.register v with
    | .ok r' => (r', .registered)
    | .error fault => (r, .refused fault)
  | .get name => (r, .variable (r.get? name))
  | .isReserved name => (r, .truth (r.isReserved name))
  | .all => (r, .variables r.toList)
  | .byCategory => (r, .groups r.byCategory)
  | .size => (r, .number r.size)

/-- The registry after some requests to a new one. -/
def run (requests : List Request) : Registry := requests.foldl (fun r request => (r.serve request).1) empty

@[simp] theorem run_concat (requests : List Request) (request : Request) :
    run (requests ++ [request]) = ((run requests).serve request).1 := by
  simp [run, List.foldl_append]

/-- A name that is taken is refused, and the registry stays as it was. -/
theorem serve_register_of_mem {r : Registry} {v : Variable} (h : v.name ∈ r.names) :
    r.serve (.register v) = (r, .refused (.alreadyRegistered v.name)) := by
  have hrefused : r.register v = .error (.alreadyRegistered v.name) := dif_pos h
  simp only [serve, hrefused]

/-- A variable of a new name comes last. -/
theorem serve_register_of_not_mem {r : Registry} {v : Variable} (h : v.name ∉ r.names) :
    (r.serve (.register v)).1.toList = r.toList ++ [v] ∧ (r.serve (.register v)).2 = .registered := by
  obtain ⟨r', hr', hlist⟩ : ∃ r', r.register v = .ok r' ∧ r'.toList = r.toList ++ [v] :=
    ⟨_, dif_neg h, rfl⟩
  simp only [serve, hr']
  exact ⟨hlist, trivial⟩

/-- Only a registration changes the registry. -/
theorem serve_fst_of_question {r : Registry} {request : Request} (h : request.variable? = none) :
    (r.serve request).1 = r := by
  cases request with
  | register v => contradiction
  | _ => rfl

/-! ## The variables that are kept -/

/-- The first variable of each name, in order. -/
def firstOfEachName : List Variable → List Variable
  | [] => []
  | v :: vs => v :: (firstOfEachName vs).filter fun w => w.name ≠ v.name

theorem firstOfEachName_concat (vs : List Variable) (v : Variable) :
    firstOfEachName (vs ++ [v]) =
      if v.name ∈ vs.map (·.name) then firstOfEachName vs else firstOfEachName vs ++ [v] := by
  induction vs with
  | nil => rfl
  | cons w vs ih =>
      rw [List.cons_append, firstOfEachName, ih, firstOfEachName]
      by_cases hvs : v.name ∈ vs.map (·.name)
      · rw [if_pos hvs, if_pos (by exact List.mem_cons_of_mem w.name hvs)]
      · rw [if_neg hvs, List.filter_append]
        by_cases hw : v.name = w.name <;> simp_all

/-- Leaving out what comes later loses no name. -/
theorem mem_map_name_firstOfEachName {vs : List Variable} {name : String} :
    name ∈ (firstOfEachName vs).map (·.name) ↔ name ∈ vs.map (·.name) := by
  induction vs with
  | nil => rfl
  | cons v vs ih =>
      simp only [List.mem_map] at ih
      simp only [firstOfEachName, List.mem_map, List.mem_cons, List.mem_filter, decide_eq_true_eq]
      by_cases hv : v.name = name
      · simp [hv]
      · grind

theorem find?_firstOfEachName (vs : List Variable) (name : String) :
    (firstOfEachName vs).find? (fun v => v.name = name) = vs.find? fun v => v.name = name := by
  induction vs with
  | nil => rfl
  | cons v vs ih =>
      rw [firstOfEachName]
      by_cases hv : v.name = name
      · simp [hv]
      · have hkeep : ∀ w : Variable, w.name ≠ v.name ∧ w.name = name ↔ w.name = name := by
          intro w
          constructor
          · exact And.right
          · intro hw
            exact ⟨fun heq => hv (heq.symm.trans hw), hw⟩
        simp only [List.find?_cons, hv, decide_false, List.find?_filter, decide_eq_true_eq, hkeep, ih]

/-- The variables that were handed in for registration. -/
def handedIn (requests : List Request) : List Variable := requests.filterMap Request.variable?

/-- **Runs.**  A registry keeps the first variable of each name that was handed in. -/
theorem toList_run (requests : List Request) : (run requests).toList = firstOfEachName (handedIn requests) := by
  induction requests using List.reverseRecOn with
  | nil => rfl
  | append_singleton requests request ih =>
      have hnames {name : String} : name ∈ (run requests).names ↔ name ∈ (handedIn requests).map (·.name) := by
        rw [names, ih, mem_map_name_firstOfEachName]
      rw [run_concat, handedIn, List.filterMap_append, ← handedIn]
      cases request with
      | register v =>
          show _ = firstOfEachName (handedIn requests ++ [v])
          rw [firstOfEachName_concat]
          by_cases hv : v.name ∈ (handedIn requests).map (·.name)
          · rw [if_pos hv, serve_register_of_mem (hnames.mpr hv), ih]
          · rw [if_neg hv, (serve_register_of_not_mem (mt hnames.mp hv)).1, ih]
      | _ =>
          rw [serve_fst_of_question rfl, ih]
          exact congrArg firstOfEachName (List.append_nil _).symm

/-! ## Groups -/

/-- A variable comes last in the group of its category, which comes last itself if it is a new one. -/
theorem addToGroup_map {vs : List Variable} {v : Variable} {cs : List Category} (hcs : cs.Nodup)
    (hnew : v.category ∉ cs → vs.filter (·.category = v.category) = []) :
    addToGroup v (cs.map fun c => (c, vs.filter (·.category = c))) =
      (if v.category ∈ cs then cs else cs ++ [v.category]).map fun c =>
        (c, (vs ++ [v]).filter (·.category = c)) := by
  induction cs with
  | nil => simp [addToGroup, List.filter_append, hnew List.not_mem_nil]
  | cons c cs ih =>
      obtain ⟨hc, hcs⟩ := List.nodup_cons.mp hcs
      by_cases hv : c = v.category
      · have hothers : ∀ c' ∈ cs, (c', vs.filter (·.category = c')) =
            (c', (vs ++ [v]).filter (·.category = c')) := by
          intro c' hc'
          have hne : v.category ≠ c' := fun heq => hc (hv.trans heq ▸ hc')
          simp [List.filter_append, hne]
        rw [List.map_cons, addToGroup, if_pos hv, if_pos (by simp [hv]), List.map_cons,
          List.map_congr_left hothers]
        simp [List.filter_append, hv]
      · have htail := ih hcs fun hnot => hnew (by simp [Ne.symm hv, hnot])
        rw [List.map_cons, addToGroup, if_neg hv, htail]
        by_cases hmem : v.category ∈ cs <;> simp [hmem, Ne.symm hv, List.filter_append]

/-- **Groups.**  The categories come in the order of their first variables, each with all of its variables. -/
theorem byCategory_eq (r : Registry) :
    r.byCategory =
      (r.toList.map (·.category)).eraseDups.map fun c => (c, r.toList.filter (·.category = c)) := by
  rw [byCategory]
  generalize r.toList = vs
  induction vs using List.reverseRecOn with
  | nil => rfl
  | append_singleton vs v ih =>
      have hnew : v.category ∉ (vs.map (·.category)).eraseDups → vs.filter (·.category = v.category) = [] := by
        simp [List.mem_eraseDups]
      rw [List.foldl_append, List.foldl_cons, List.foldl_nil, ih, addToGroup_map (nodup_eraseDups _) hnew,
        List.map_append, List.map_singleton, eraseDups_concat]
      simp only [List.mem_eraseDups]

theorem flatMap_addToGroup_perm (v : Variable) (groups : List (Category × List Variable)) :
    ((addToGroup v groups).flatMap (·.2)).Perm (groups.flatMap (·.2) ++ [v]) := by
  induction groups with
  | nil => exact List.Perm.refl [v]
  | cons g groups ih =>
      obtain ⟨c, vs⟩ := g
      rw [addToGroup]
      split
      · simp only [List.flatMap_cons, List.append_assoc]
        exact List.perm_append_comm.append_left vs
      · simp only [List.flatMap_cons, List.append_assoc]
        exact ih.append_left vs

/-- Every variable is in one group, once. -/
theorem flatMap_byCategory_perm (r : Registry) : (r.byCategory.flatMap (·.2)).Perm r.toList := by
  rw [byCategory]
  generalize r.toList = vs
  induction vs using List.reverseRecOn with
  | nil => exact List.Perm.refl []
  | append_singleton vs v ih =>
      rw [List.foldl_append, List.foldl_cons, List.foldl_nil]
      exact (flatMap_addToGroup_perm v _).trans (ih.append_right [v])

/-- How variables are put into groups. -/
structure IsGrouping (groups : List (Category × List Variable)) (vs : List Variable) : Prop where
  /-- The categories come in the order of their first variables, none of them twice. -/
  categories_eq : groups.map (·.1) = (vs.map (·.category)).eraseDups
  nodup : (groups.map (·.1)).Nodup
  /-- Each category has all of its variables, in order, and there is one at least. -/
  group_eq : ∀ g ∈ groups, g.2 = vs.filter (·.category = g.1)
  ne_nil : ∀ g ∈ groups, g.2 ≠ []
  /-- Every variable is in one group, once. -/
  perm : (groups.flatMap (·.2)).Perm vs

theorem isGrouping_byCategory (r : Registry) : IsGrouping r.byCategory r.toList := by
  have hcategories : r.byCategory.map (·.1) = (r.toList.map (·.category)).eraseDups := by
    simp [byCategory_eq, Function.comp_def]
  have hgroup : ∀ g ∈ r.byCategory, g.2 = r.toList.filter (·.category = g.1) := by
    rw [byCategory_eq]
    intro g hg
    obtain ⟨c, _, rfl⟩ := List.mem_map.mp hg
    rfl
  refine ⟨hcategories, hcategories ▸ nodup_eraseDups _, hgroup, ?_, r.flatMap_byCategory_perm⟩
  intro g hg hnil
  have hcategory : g.1 ∈ (r.toList.map (·.category)).eraseDups := hcategories ▸ List.mem_map_of_mem hg
  obtain ⟨v, hv, hvg⟩ := List.mem_map.mp (List.mem_eraseDups.mp hcategory)
  rw [hgroup g hg, List.filter_eq_nil_iff] at hnil
  exact hnil v hv (by simpa using hvg)

/-! ## Answers -/

theorem mem_names_run_iff {requests : List Request} {name : String} :
    name ∈ (run requests).names ↔ name ∈ (handedIn requests).map (·.name) := by
  rw [names, toList_run, mem_map_name_firstOfEachName]

theorem size_run (requests : List Request) :
    (run requests).size = ((handedIn requests).map (·.name)).toFinset.card := by
  have hsame : ((handedIn requests).map (·.name)).toFinset = (run requests).names.toFinset :=
    List.toFinset.ext fun _ => mem_names_run_iff.symm
  have hnodup : (run requests).names.Nodup := (run requests).nodup
  rw [hsame, List.toFinset_card_of_nodup hnodup, names, List.length_map, size]

theorem get?_run (requests : List Request) (name : String) :
    (run requests).get? name = (handedIn requests).find? fun v => v.name = name := by
  rw [get?, toList_run, find?_firstOfEachName]

/-- A name is reserved when it has a variable. -/
theorem isReserved_eq_isSome_get? (r : Registry) (name : String) :
    r.isReserved name = (r.get? name).isSome := by
  rw [Bool.eq_iff_iff]
  simp [isReserved, names, get?, List.find?_isSome]

/-- **Requests to a new registry**, in any order.  After them, a variable is refused when one of its name was
handed in before, and then the registry stays as it was.  The other answers are about the first variable of each
name that was handed in: all of them in order, how many they are, the one of a name, whether there is one, and
their groups. -/
theorem serve_run (requests : List Request) :
    let r := run requests
    let vs := handedIn requests
    (∀ v, r.serve (.register v) =
      if v.name ∈ vs.map (·.name) then (r, .refused (.alreadyRegistered v.name))
      else (run (requests ++ [.register v]), .registered)) ∧
    r.serve .all = (r, .variables (firstOfEachName vs)) ∧
    r.serve .size = (r, .number (vs.map (·.name)).toFinset.card) ∧
    (∀ name, r.serve (.get name) = (r, .variable (vs.find? fun v => v.name = name)) ∧
      r.serve (.isReserved name) = (r, .truth (vs.find? fun v => v.name = name).isSome)) ∧
    ∃ groups, r.serve .byCategory = (r, .groups groups) ∧ IsGrouping groups (firstOfEachName vs) := by
  intro r vs
  have hlist : r.toList = firstOfEachName vs := toList_run requests
  have hget : ∀ name, r.get? name = vs.find? fun v => v.name = name := get?_run requests
  refine ⟨fun v => ?_, ?_, ?_, fun name => ⟨?_, ?_⟩, r.byCategory, rfl, hlist ▸ r.isGrouping_byCategory⟩
  · split
    · next hv => exact serve_register_of_mem (mem_names_run_iff.mpr hv)
    · next hv =>
        rw [run_concat, ← (serve_register_of_not_mem (mt mem_names_run_iff.mp hv)).2]
  · rw [serve, hlist]
  · rw [serve, size_run]
  · rw [serve, hget]
  · rw [serve, isReserved_eq_isSome_get?, hget]

end Registry

end ColumnLabel
