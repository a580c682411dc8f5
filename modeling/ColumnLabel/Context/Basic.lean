import ColumnLabel.Value.Basic

/-!
# ColumnLabel.Context.Basic

The context of a label: the named values its template may ask for.  Names are in the order in which they
were first given, and no name occurs twice; giving a name again replaces its value.

The main statements say what `set` does to the two views of a context, the names in order (`names_set`)
and the value of a name (`get?_set`).
-/

namespace ColumnLabel

namespace Context

/-- Gives a name a value in a list of named values: in its place if it is there, else at the end. -/
def setEntry (name : String) (value : Value) : List (String × Value) → List (String × Value)
  | [] => [(name, value)]
  | (n, v) :: rest => if n = name then (n, value) :: rest else (n, v) :: setEntry name value rest

theorem map_fst_setEntry (name : String) (value : Value) (es : List (String × Value)) :
    (setEntry name value es).map (·.1) =
      if name ∈ es.map (·.1) then es.map (·.1) else es.map (·.1) ++ [name] := by
  induction es with
  | nil => rfl
  | cons e rest ih =>
    obtain ⟨n, v⟩ := e
    by_cases h : n = name
    · simp [setEntry, h]
    · have h' : ¬name = n := fun e => h e.symm
      by_cases hm : name ∈ rest.map (·.1)
      · simp only [setEntry, h, if_false, List.map_cons, ih, hm, if_true, List.mem_cons, or_true]
      · simp only [setEntry, h, if_false, List.map_cons, ih, hm, List.mem_cons, h', or_self,
          List.cons_append]

theorem nodup_setEntry {name : String} {value : Value} {es : List (String × Value)}
    (h : (es.map (·.1)).Nodup) : ((setEntry name value es).map (·.1)).Nodup := by
  rw [map_fst_setEntry]
  split
  · exact h
  · next hm =>
    rw [List.nodup_append]
    refine ⟨h, by simp, ?_⟩
    intro a ha b hb
    simp only [List.mem_singleton] at hb
    rintro rfl
    exact hm (hb ▸ ha)

end Context

/-- Named values in order, no name twice. -/
structure Context where
  entries : List (String × Value)
  nodup : (entries.map (·.1)).Nodup

namespace Context

/-- The context without values. -/
def empty : Context := ⟨[], by simp⟩

instance : Inhabited Context := ⟨empty⟩

/-- The names in order. -/
def names (c : Context) : List String := c.entries.map (·.1)

/-- The number of names. -/
def size (c : Context) : Nat := c.entries.length

/-- The value of a name. -/
def get? (c : Context) (name : String) : Option Value :=
  (c.entries.find? fun e => e.1 = name).map (·.2)

/-- Has the name a value? -/
def contains (c : Context) (name : String) : Bool := (c.get? name).isSome

/-- Gives a name a value. -/
def set (c : Context) (name : String) (value : Value) : Context :=
  ⟨setEntry name value c.entries, nodup_setEntry c.nodup⟩

/-! ## What `set` does -/

@[simp] theorem get?_empty (name : String) : empty.get? name = none := rfl

/-- A new name comes last; a name that is there keeps its place. -/
theorem names_set (c : Context) (name : String) (value : Value) :
    (c.set name value).names = if name ∈ c.names then c.names else c.names ++ [name] :=
  map_fst_setEntry name value c.entries

/-- Setting a name changes the value of that name and of no other. -/
theorem get?_set (c : Context) (name : String) (value : Value) (other : String) :
    (c.set name value).get? other = if name = other then some value else c.get? other := by
  obtain ⟨es, hes⟩ := c
  simp only [get?, set]
  clear hes
  induction es with
  | nil => by_cases h : name = other <;> simp [setEntry, h]
  | cons e rest ih =>
    obtain ⟨n, v⟩ := e
    by_cases h : n = name
    · subst h
      by_cases ho : n = other <;> simp [setEntry, ho]
    · by_cases ho : n = other
      · subst ho
        simp [setEntry, h, Ne.symm h]
      · simp [setEntry, h, ho, ih]

/-! ## Contexts from raw data -/

/-- Adds the entries of a record to a context, each name as its plain text. -/
def addEntries (c : Context) : List (Datum × Datum) → Except Fault Context
  | [] => .ok c
  | (name, datum) :: rest => do
    let value ← Value.ofDatum datum
    let name ← name.plain
    addEntries (c.set (String.ofList name) value) rest

/-- The context of a datum: of a record its entries, of nothing the empty one. -/
def ofDatum (d : Datum) : Except Fault Context :=
  if !d.isTruthy then .ok empty
  else
    match d with
    | .record r => addEntries empty r.toList
    | d => .error (.noPart d.kind "items")

/-- What fills the placeholders of each name. -/
def displayValues (c : Context) : Except Fault (List (String × Datum)) :=
  c.entries.mapM fun (name, value) => return (name, ← value.display)

/-- The written form of a context. -/
def written (c : Context) : Except Fault (List Char) := do
  let entries ← c.entries.mapM fun (name, value) =>
    return Text.quoteChars name.toList ++ ':' :: ' ' :: (← (Datum.value value).written)
  return "LabelContext(\x7b".toList ++ commaSeparated entries ++ ['}', ')']

end Context

end ColumnLabel
