import ColumnLabel.Proofs.Label.Filling

/-!
# ColumnLabel.Proofs.Label.Independence

What a label depends on.

Which branches stand depends on the values of the names in conditions alone (`resolveBlocks_congr`).  The
value of any other name is data: the label is made of texts that do not depend on it, with what the value
shows between them (`exists_renderWith_eq_intercalate`).  So no value, whatever marks it holds, is ever
read as a template.
-/

namespace ColumnLabel

/-! ## Names in conditions -/

namespace Template

/-- The names that the conditions of a node ask for. -/
def conditionNamesOf : Node → List String
  | .segment _ => []
  | .block branches => branches.filterMap fun b => b.condition.map fun c => (Condition.read c).name

/-- The names that the conditions of a template ask for, in all its blocks. -/
def conditionNames (t : Template) : List String := t.flatMap conditionNamesOf

end Template

/-- A condition asks for the value of its name and for nothing else. -/
theorem Condition.check_congr {c c' : Context} (condition : Condition)
    (h : c.get? condition.name = c'.get? condition.name) : condition.check c = condition.check c' := by
  cases condition with
  | holds name => simp only [check, show c.get? name = c'.get? name from h]
  | equals name literal => simp only [check, show c.get? name = c'.get? name from h]
  | startsWith name literal => simp only [check, show c.get? name = c'.get? name from h]
  | compares name side bound => simp only [check, show c.get? name = c'.get? name from h]

namespace Context

/-- The choice of a branch depends on the names of its block's conditions. -/
theorem choose_congr {c c' : Context} (logger : String) (branches : List Branch)
    (h : ∀ name ∈ Template.conditionNamesOf (.block branches), c.get? name = c'.get? name) :
    c.choose logger branches = c'.choose logger branches := by
  induction branches with
  | nil => rfl
  | cons b branches ih =>
      have hrest : c.choose logger branches = c'.choose logger branches := by
        refine ih fun name hname => h name ?_
        simp only [Template.conditionNamesOf, List.filterMap_cons] at hname ⊢
        split
        · exact hname
        · exact List.mem_cons_of_mem _ hname
      cases hb : b.condition with
      | none => simp only [choose, hb]
      | some condition =>
          have hname : c.get? (Condition.read condition).name = c'.get? (Condition.read condition).name :=
            h _ (by simp [Template.conditionNamesOf, hb])
          have hholds : c.satisfies logger condition = c'.satisfies logger condition := by
            rw [satisfies, satisfies, Condition.check_congr _ hname]
          simp only [choose, hb, hholds, hrest]

/-- The branch-resolved text depends on the names in the template's conditions. -/
theorem resolveBlocks_congr {c c' : Context} (logger text : String)
    (h : ∀ name ∈ (Template.parse text).conditionNames, c.get? name = c'.get? name) :
    c.resolveBlocks logger text = c'.resolveBlocks logger text := by
  have hnode : ∀ n ∈ Template.parse text, c.resolveNode logger n = c'.resolveNode logger n := by
    intro n hn
    cases n with
    | segment s => rfl
    | block branches =>
        have hbranches : c.choose logger branches = c'.choose logger branches :=
          choose_congr logger branches fun name hname =>
            h name (List.mem_flatMap.mpr ⟨.block branches, hn, hname⟩)
        simp only [resolveNode, hbranches]
  simp only [resolveBlocks, List.map_congr_left hnode]

/-! ## One value as data -/

/-- The texts between the places where the value of a name stands. -/
def around (c : Context) (name : String) : List Segment → List String
  | [] => [""]
  | s :: segments =>
    if s.name? = some name then "" :: around c name segments
    else
      match around c name segments with
      | [] => [c.emit s]
      | first :: rest => (c.emit s ++ first) :: rest

theorem length_around (c : Context) (name : String) (segments : List Segment) :
    (c.around name segments).length = segments.countP (·.name? = some name) + 1 := by
  induction segments with
  | nil => rfl
  | cons s segments ih =>
      simp only [around]
      split
      · next hs => simp [ih, hs]
      · next hs =>
          split
          · next hnil => simp [hnil] at ih
          · next first rest hcons =>
              rw [hcons] at ih
              simp only [List.length_cons] at ih ⊢
              rw [ih, List.countP_cons_of_neg (by simpa using hs)]

/-- A segment with another name emits the same, whatever the value of the name. -/
theorem emit_set_of_ne (c : Context) {name : String} (value : Value) {s : Segment}
    (hs : s.name? ≠ some name) : (c.set name value).emit s = c.emit s := by
  cases s with
  | literal text => rfl
  | placeholder other raw =>
      have hne : ¬ name = other := fun he => hs (by simp [Segment.name?, he])
      simp [emit, get?_set, hne]

/-- A placeholder of the name emits the text that the name is set to. -/
theorem emit_set_text (c : Context) {name : String} (shown : String) {s : Segment}
    (hs : s.name? = some name) : (c.set name (.text shown)).emit s = shown := by
  cases s with
  | literal text => simp [Segment.name?] at hs
  | placeholder other raw =>
      obtain rfl : other = name := by simpa [Segment.name?] using hs
      simp [emit, get?_set, Value.display]

/-- What segments emit is the same texts for every value of a name, with the value between them. -/
theorem emitAll_set_text (c : Context) (name shown : String) (segments : List Segment) :
    (c.set name (.text shown)).emitAll segments = shown.intercalate (c.around name segments) := by
  induction segments with
  | nil => simp [around]
  | cons s segments ih =>
      have hne : c.around name segments ≠ [] := by
        rw [← List.length_pos_iff, length_around]
        omega
      rw [emitAll_cons, ih, around]
      split
      · next hs =>
          rw [c.emit_set_text shown hs, String.intercalate_cons_of_ne_nil hne]
          simp
      · next hs =>
          rw [c.emit_set_of_ne _ hs]
          cases ha : c.around name segments with
          | nil => exact absurd ha hne
          | cons first rest => simp

/-- Whether a segment can be filled does not depend on the text of the name. -/
theorem canFill_set_text (c : Context) (name shown : String) (s : Segment) :
    (c.set name (.text shown)).canFill s = (decide (s.name? = some name) || c.canFill s) := by
  cases s with
  | literal text => simp [canFill]
  | placeholder other raw =>
      by_cases hname : name = other
      · simp [canFill, isTooDeep, get?_set, hname, Segment.name?, Value.isTooDeep, Value.display]
      · simp [canFill, isTooDeep, get?_set, hname, Segment.name?, Ne.symm hname]

end Context

namespace Label

/-- **Values are data**: where no condition asks for a name, the label is a fixed list of texts with the
value of the name between them, one more than the branch-resolved text has placeholders of that name.  The
texts do not depend on the value, whatever characters it has.  If another placeholder cannot be filled, the only text
is the template itself. -/
theorem exists_renderWith_eq_intercalate (logger template : String) {c : Context} (hc : c.IsWrapped)
    {name : String} (hname : name ∉ (Template.parse template).conditionNames) :
    let segments := Segment.read (c.resolveBlocks logger template).1
    ∃ texts : List String,
      ((∀ s ∈ segments, s.name? = some name ∨ c.canFill s = true) →
        texts.length = segments.countP (·.name? = some name) + 1) ∧
      ((∃ s ∈ segments, s.name? ≠ some name ∧ c.canFill s = false) → texts = [template]) ∧
      ∀ shown : String,
        (renderWith logger (.text template) (.ok (c.set name (.text shown)))).1 = shown.intercalate texts := by
  intro segments
  have hblocks : ∀ shown : String,
      (c.set name (.text shown)).resolveBlocks logger template = c.resolveBlocks logger template := by
    intro shown
    refine Context.resolveBlocks_congr logger template fun other hother => ?_
    have hne : ¬ name = other := fun he => hname (he ▸ hother)
    rw [Context.get?_set, if_neg hne]
  have hset : ∀ shown : String, (c.set name (.text shown)).IsWrapped :=
    fun shown => hc.set name (Value.isWrapped_text shown)
  have hfilled : ∀ shown : String, segments.all (c.set name (.text shown)).canFill =
      decide (∀ s ∈ segments, s.name? = some name ∨ c.canFill s = true) := by
    intro shown
    rw [Bool.eq_iff_iff, List.all_eq_true, decide_eq_true_iff]
    simp only [Context.canFill_set_text, Bool.or_eq_true, decide_eq_true_eq]
  by_cases hall : ∀ s ∈ segments, s.name? = some name ∨ c.canFill s = true
  · refine ⟨c.around name segments, fun _ => c.length_around name _, fun hdeep => ?_, fun shown => ?_⟩
    · obtain ⟨s, hs, hne, hfill⟩ := hdeep
      exact absurd (hall s hs) (by simp [hne, hfill])
    · rw [renderWith_eq_emitAll (hset shown) (by rw [hblocks, hfilled, decide_eq_true hall]), hblocks,
        Context.emitAll_set_text]
  · refine ⟨[template], fun h => absurd h hall, fun _ => rfl, fun shown => ?_⟩
    rw [renderWith_eq_template (hset shown) (by rw [hblocks, hfilled, decide_eq_false hall])]
    simp

/-- Two placeholders of a name stand in the branch that another name selects, so there is a text before,
between and after them. -/
theorem exists_renderWith_eq_intercalate_twice :
    let template := "{% if m > 0 %}<{{n}}|{{ n }}>{% else %}{{n}}{% endif %}"
    let c := Context.empty.set "m" (.number (.int 1))
    c.IsWrapped ∧ "n" ∉ (Template.parse template).conditionNames ∧
      ∃ texts : List String, texts.length = 3 ∧ ∀ shown : String,
        (renderWith "" (.text template) (.ok (c.set "n" (.text shown)))).1 = shown.intercalate texts := by
  intro template c
  have hc : c.IsWrapped := Context.isWrapped_empty.set "m" (Value.isWrapped_int 1)
  have hname : "n" ∉ (Template.parse template).conditionNames := by decide +kernel
  have hfill : ∀ s ∈ Segment.read (c.resolveBlocks "" template).1, s.name? = some "n" ∨ c.canFill s = true := by
    decide +kernel
  obtain ⟨texts, hlength, -, hlabel⟩ := exists_renderWith_eq_intercalate "" template hc hname
  exact ⟨hc, hname, texts, (hlength hfill).trans (by decide +kernel), hlabel⟩

end Label

end ColumnLabel
