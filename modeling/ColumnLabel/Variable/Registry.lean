import ColumnLabel.Variable.Basic

/-!
# ColumnLabel.Variable.Registry

Registries of variables.  A registry keeps its variables in the order of their registration and never has
two of one name.  Its names are reserved: a value computed elsewhere cannot take one of them.
-/

namespace ColumnLabel

/-- Variables in order, no name twice. -/
structure Registry where
  toList : List Variable
  nodup : (toList.map (·.name)).Nodup

namespace Registry

/-- The registry without variables. -/
def empty : Registry := ⟨[], by simp⟩

instance : Inhabited Registry := ⟨empty⟩

/-- The names in order. -/
def names (r : Registry) : List String := r.toList.map (·.name)

/-- The number of variables. -/
def size (r : Registry) : Nat := r.toList.length

/-- The variable of a name. -/
def get? (r : Registry) (name : String) : Option Variable :=
  r.toList.find? fun v => v.name = name

/-- Is the name one of the registry's? -/
def isReserved (r : Registry) (name : String) : Bool := r.names.contains name

/-- Adds a variable at the end, unless its name is taken. -/
def register (r : Registry) (v : Variable) : Except Fault Registry :=
  if h : v.name ∈ r.toList.map (·.name) then .error (.alreadyRegistered v.name)
  else
    .ok ⟨r.toList ++ [v], by
      rw [List.map_append, List.nodup_append]
      refine ⟨r.nodup, by simp, ?_⟩
      intro a ha b hb
      simp only [List.map_cons, List.map_nil, List.mem_singleton] at hb
      rintro rfl
      exact h (hb ▸ ha)⟩

/-- Adds a variable to the group of its category; a category that has none yet comes last. -/
def addToGroup (v : Variable) : List (Category × List Variable) → List (Category × List Variable)
  | [] => [(v.category, [v])]
  | (c, vs) :: groups =>
    if c = v.category then (c, vs ++ [v]) :: groups else (c, vs) :: addToGroup v groups

/-- The variables by category, the categories in the order of their first variables. -/
def byCategory (r : Registry) : List (Category × List Variable) :=
  r.toList.foldl (fun groups v => addToGroup v groups) []

end Registry

end ColumnLabel
