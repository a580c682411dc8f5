import ColumnLabel.Column.Name
import ColumnLabel.Proofs.Text.Case
import ColumnLabel.Proofs.Text.Cut

/-!
# ColumnLabel.Proofs.Column.Name

What the names of columns are made of.

An aggregate is a spelling of a known function, a field in parentheses, and an ending: nothing, or a line break
(`IsAggregate`).  Exactly the aggregates are split, and the ending is lost (`splitAggregate?_eq_some_iff`).  The
capitals of the spelling are the known function, unless it is a minimum with a dotted capital I; there the friendly
name is at a loss, and nowhere else (`exists_friendlyName_eq_ok_iff`).
-/

namespace ColumnLabel.Column

open Text

/-! ## Parts of a name -/

/-- What is taken off the start of a text counts as the word, and the rest is what is left. -/
theorem takeFolded?_eq_some_iff {word cs taken rest : List Char} :
    takeFolded? word cs = some (taken, rest) ↔ cs = taken ++ rest ∧ taken.map foldChar = word.map foldChar := by
  induction word generalizing cs taken rest with
  | nil =>
      rw [takeFolded?, Option.some.injEq, Prod.mk.injEq, List.map_nil, List.map_eq_nil_iff]
      constructor
      · intro h
        obtain ⟨rfl, rfl⟩ := h
        exact ⟨rfl, rfl⟩
      · intro h
        obtain ⟨rfl, rfl⟩ := h
        exact ⟨rfl, rfl⟩
  | cons w word ih =>
      cases cs with
      | nil => cases taken <;> simp [takeFolded?]
      | cons c cs =>
          rw [takeFolded?]
          split
          · next hc =>
            simp only [Option.map_eq_some_iff, Prod.exists, ih, Prod.mk.injEq]
            constructor
            · intro h
              obtain ⟨taken, _, ⟨rfl, htaken⟩, rfl, rfl⟩ := h
              exact ⟨rfl, by rw [List.map_cons, List.map_cons, hc, htaken]⟩
            · intro h
              obtain ⟨hcs, hmap⟩ := h
              obtain ⟨c', taken, rfl, -, htaken⟩ := List.map_eq_cons_iff.mp hmap
              obtain ⟨rfl, rfl⟩ := List.cons.inj hcs
              exact ⟨taken, rest, ⟨rfl, htaken⟩, rfl, rfl⟩
          · next hc =>
            constructor
            · intro h
              contradiction
            · intro h
              obtain ⟨hcs, htaken⟩ := h
              obtain ⟨c', taken, rfl, hc', -⟩ := List.map_eq_cons_iff.mp htaken
              obtain ⟨rfl, -⟩ := List.cons.inj hcs
              exact absurd hc' hc

/-- A field is what stands in front of the last parenthesis, if there is no line break in it. -/
theorem untilLastParenthesis?_eq_some_iff {cs field : List Char} :
    untilLastParenthesis? cs = some field ↔
      '\n' ∉ field ∧ ∃ ending, (ending = [] ∨ ending = ['\n']) ∧ cs = field ++ ')' :: ending := by
  have hclosed : ∀ {ds : List Char}, (if ds.getLast? = some ')' ∧ '\n' ∉ ds then some ds.dropLast else none) =
      some field ↔ '\n' ∉ field ∧ ds = field ++ [')'] := by
    intro ds
    rw [Option.ite_none_right_eq_some, Option.some.injEq]
    constructor
    · intro h
      obtain ⟨⟨hlast, hline⟩, rfl⟩ := h
      have hds : ds.dropLast ++ [')'] = ds := List.dropLast_append_getLast? ')' hlast
      exact ⟨fun h => hline (List.dropLast_subset ds h), hds.symm⟩
    · intro h
      obtain ⟨hline, rfl⟩ := h
      simp [hline]
  rw [untilLastParenthesis?]
  split
  · next hlast =>
    have hcs : cs.dropLast ++ ['\n'] = cs := List.dropLast_append_getLast? '\n' hlast
    rw [hclosed]
    refine and_congr_right fun _ => ⟨fun h => ⟨['\n'], .inr rfl, ?_⟩, ?_⟩
    · rw [← hcs, h, List.append_assoc]
      rfl
    · intro h
      obtain ⟨ending, rfl | rfl, h⟩ := h
      · simp [h] at hlast
      · simp [h]
  · next hlast =>
    rw [hclosed]
    refine and_congr_right fun _ => ⟨fun h => ⟨[], .inl rfl, h⟩, ?_⟩
    intro h
    obtain ⟨ending, rfl | rfl, rfl⟩ := h
    · rfl
    · simp at hlast

/-! ## Aggregates -/

/-- A name is an aggregate of a function: a spelling of it, a field without a line break in parentheses, and then
nothing or a line break. -/
structure IsAggregate (name function written field ending : List Char) : Prop where
  name_eq : name = written ++ '(' :: (field ++ ')' :: ending)
  spells : written.map foldChar = function.map foldChar
  field_line : '\n' ∉ field
  ending_line : ending = [] ∨ ending = ['\n']

theorem splitBy?_eq_some_iff {function : String} {cs capitals field : List Char} :
    splitBy? function cs = some (capitals, field) ↔
      ∃ written ending, IsAggregate cs function.toList written field ending ∧ upper written = capitals := by
  constructor
  · intro h
    rw [splitBy?] at h
    split at h
    · next written rest htaken =>
      obtain ⟨_, hrest, hpair⟩ := Option.map_eq_some_iff.mp h
      obtain ⟨rfl, rfl⟩ := Prod.mk.inj hpair
      obtain ⟨hcs, hspells⟩ := takeFolded?_eq_some_iff.mp htaken
      obtain ⟨hline, ending, hending, rfl⟩ := untilLastParenthesis?_eq_some_iff.mp hrest
      exact ⟨written, ending, ⟨hcs, hspells, hline, hending⟩, rfl⟩
    · contradiction
  · intro h
    obtain ⟨written, ending, ⟨hcs, hspells, hline, hending⟩, rfl⟩ := h
    have htaken := takeFolded?_eq_some_iff.mpr ⟨hcs, hspells⟩
    have hrest := untilLastParenthesis?_eq_some_iff.mpr ⟨hline, ending, hending, rfl⟩
    simp only [splitBy?, htaken, hrest, Option.map_some]

/-- The known functions. -/
def functions : List String := aggregateWords.map (·.1)

theorem isUpper_of_mem_functions {function : String} (h : function ∈ functions) :
    ∀ f ∈ function.toList, f.isUpper = true ∧ f ≠ 'K' := by
  have hcapital : ∀ known ∈ functions, known.toList.all (fun f => f.isUpper && f != 'K') = true := by decide
  intro f hf
  simpa using List.all_eq_true.mp (hcapital function h) f hf

variable {name function other : String} {written field ending written' field' ending' : List Char}

/-- A spelling has no parenthesis in it. -/
theorem IsAggregate.not_mem_written (h : IsAggregate name.toList function.toList written field ending)
    (hfunction : function ∈ functions) : '(' ∉ written := by
  intro hmem
  have hfold : foldChar '(' ∈ function.toList.map foldChar := h.spells ▸ List.mem_map_of_mem hmem
  have hno : ∀ known ∈ functions, foldChar '(' ∉ known.toList.map foldChar := by decide
  exact hno function hfunction hfold

/-- So a name is cut behind the spelling at its first parenthesis. -/
theorem IsAggregate.cutAtFirst?_eq (h : IsAggregate name.toList function.toList written field ending)
    (hfunction : function ∈ functions) :
    cutAtFirst? ['('] name.toList = some (written, field ++ ')' :: ending) := by
  have hfirst : ¬ ['('] <:+: written ++ ['('].dropLast := by
    intro hin
    exact h.not_mem_written hfunction (by simpa using hin.subset (List.mem_singleton_self '('))
  rw [h.name_eq]
  exact cutAtFirst?_append hfirst _

/-- There is one way only to read it as an aggregate. -/
theorem IsAggregate.unique (h : IsAggregate name.toList function.toList written field ending)
    (h' : IsAggregate name.toList other.toList written' field' ending')
    (hfunction : function ∈ functions) (hother : other ∈ functions) : written = written' ∧ field = field' := by
  have hcut := (h.cutAtFirst?_eq hfunction).symm.trans (h'.cutAtFirst?_eq hother)
  obtain ⟨hwritten, hrest⟩ := Prod.mk.inj (Option.some.inj hcut)
  have hfield := untilLastParenthesis?_eq_some_iff.mpr ⟨h.field_line, ending, h.ending_line, rfl⟩
  have hfield' := untilLastParenthesis?_eq_some_iff.mpr ⟨h'.field_line, ending', h'.ending_line, rfl⟩
  rw [hrest, hfield'] at hfield
  exact ⟨hwritten, (Option.some.inj hfield).symm⟩

/-- **Splitting.**  What is split is an aggregate of a known function, and what it is split into are the capitals of the
spelling and the field. -/
theorem splitAggregate?_eq_some_iff {capitals x : String} :
    splitAggregate? name = some (capitals, x) ↔
      ∃ function ∈ functions, ∃ written ending,
        IsAggregate name.toList function.toList written x.toList ending ∧ upper written = capitals.toList := by
  have hsplit : ∀ {F field}, (aggregateWords.findSome? fun known => splitBy? known.1 name.toList) = some (F, field) →
      ∃ function ∈ functions, ∃ written ending,
        IsAggregate name.toList function.toList written field ending ∧ upper written = F := by
    intro F field h
    obtain ⟨known, hmem, h⟩ := List.exists_of_findSome?_eq_some h
    exact ⟨known.1, List.mem_map_of_mem hmem, splitBy?_eq_some_iff.mp h⟩
  rw [splitAggregate?, Option.map_eq_some_iff]
  constructor
  · intro h
    obtain ⟨⟨F, field⟩, h, hpair⟩ := h
    obtain ⟨rfl, rfl⟩ := Prod.mk.inj hpair
    simpa using hsplit h
  · intro h
    obtain ⟨function, hfunction, written, ending, h, hupper⟩ := h
    obtain ⟨known, hmem, rfl⟩ := List.mem_map.mp hfunction
    have hsome := splitBy?_eq_some_iff.mpr ⟨written, ending, h, rfl⟩
    cases hfound : aggregateWords.findSome? fun known => splitBy? known.1 name.toList with
    | none =>
        have hnone : splitBy? known.1 name.toList = none := List.findSome?_eq_none_iff.mp hfound known hmem
        rw [hsome] at hnone
        contradiction
    | some found =>
        -- another function may have been found, but only one spelling and one field can be
        obtain ⟨F, field⟩ := found
        obtain ⟨other, hother, written', ending', h', rfl⟩ := hsplit hfound
        obtain ⟨rfl, rfl⟩ := h'.unique h hother hfunction
        exact ⟨_, rfl, by simp [hupper]⟩

/-! ## Capitals -/

/-- Is a name a minimum whose `I` is the dotted capital one beyond ASCII? -/
def IsDottedMinimum (name : String) : Prop :=
  ∃ m n field ending, (m = 'M' ∨ m = 'm') ∧ (n = 'N' ∨ n = 'n') ∧
    name.toList = m :: 'İ' :: n :: '(' :: (field ++ ')' :: ending) ∧ '\n' ∉ field ∧
    (ending = [] ∨ ending = ['\n'])

/-- The spellings of a known function with a dotted capital I are those of a minimum. -/
theorem spells_and_mem_iff {cs : List Char} :
    (∃ function ∈ functions, cs.map foldChar = function.toList.map foldChar ∧ 'İ' ∈ cs) ↔
      ∃ m n, (m = 'M' ∨ m = 'm') ∧ (n = 'N' ∨ n = 'n') ∧ cs = [m, 'İ', n] := by
  constructor
  · intro h
    obtain ⟨function, hfunction, hspells, hmem⟩ := h
    have honly : ∀ known ∈ functions, foldChar 'İ' ∈ known.toList.map foldChar → known = "MIN" := by decide
    obtain rfl := honly function hfunction (hspells ▸ List.mem_map_of_mem hmem)
    have hletters : "MIN".toList = ['M', 'I', 'N'] := rfl
    rw [hletters] at hspells
    obtain ⟨m, _, rfl, hm, hrest⟩ := List.map_eq_cons_iff.mp hspells
    obtain ⟨i, _, rfl, hi, hrest⟩ := List.map_eq_cons_iff.mp hrest
    obtain ⟨n, _, rfl, hn, hrest⟩ := List.map_eq_cons_iff.mp hrest
    obtain rfl := List.map_eq_nil_iff.mp hrest
    have hm : m = 'M' ∨ m = 'm' := by simpa using eq_of_foldChar_eq (by decide) hm
    have hn : n = 'N' ∨ n = 'n' := by simpa using eq_of_foldChar_eq (by decide) hn
    refine ⟨m, n, hm, hn, ?_⟩
    have hi : i = 'İ' := by
      obtain rfl | rfl := hm <;> obtain rfl | rfl := hn <;> simpa [eq_comm] using hmem
    rw [hi]
  · intro h
    obtain ⟨m, n, hm, hn, rfl⟩ := h
    refine ⟨"MIN", by decide, ?_, by simp⟩
    obtain rfl | rfl := hm <;> obtain rfl | rfl := hn <;> decide

theorem isDottedMinimum_iff :
    IsDottedMinimum name ↔ ∃ function ∈ functions, ∃ written field ending,
      IsAggregate name.toList function.toList written field ending ∧ 'İ' ∈ written := by
  constructor
  · intro h
    obtain ⟨m, n, field, ending, hm, hn, hname, hline, hending⟩ := h
    obtain ⟨function, hfunction, hspells, hmem⟩ := spells_and_mem_iff.mpr ⟨m, n, hm, hn, rfl⟩
    exact ⟨function, hfunction, _, field, ending, ⟨hname, hspells, hline, hending⟩, hmem⟩
  · intro h
    obtain ⟨function, hfunction, written, field, ending, ⟨hname, hspells, hline, hending⟩, hmem⟩ := h
    obtain ⟨m, n, hm, hn, rfl⟩ := spells_and_mem_iff.mp ⟨function, hfunction, hspells, hmem⟩
    exact ⟨m, n, field, ending, hm, hn, hname, hline, hending⟩

/-! ## Friendly names -/

/-- What is no aggregate is named as a field. -/
theorem friendlyName_of_splitAggregate?_eq_none (h : splitAggregate? name = none) :
    friendlyName name = .ok (fieldLabel name) := by
  rw [friendlyName, h]

/-- An aggregate that spells its function without a dotted capital I is named by the word for the function and the label
of the field. -/
theorem friendlyName_of_isAggregate {x : String} (hfunction : function ∈ functions)
    (h : IsAggregate name.toList function.toList written x.toList ending) (hdot : 'İ' ∉ written) :
    ∃ word, aggregateWords.lookup function = some word ∧
      friendlyName name = .ok (word ++ " " ++ fieldLabel x) := by
  have hknown : ∀ known ∈ functions, (aggregateWords.lookup known).isSome = true := by decide
  obtain ⟨word, hword⟩ := Option.isSome_iff_exists.mp (hknown function hfunction)
  have hupper := upper_of_map_foldChar_eq (isUpper_of_mem_functions hfunction) h.spells hdot
  have hsplit := splitAggregate?_eq_some_iff.mpr ⟨function, hfunction, written, ending, h, hupper⟩
  refine ⟨word, hword, ?_⟩
  simp only [friendlyName, hsplit, hword]

/-- The capitals of a dotted capital I are no letter of a known function. -/
theorem friendlyName_of_isDottedMinimum (h : IsDottedMinimum name) :
    friendlyName name = .error (.unknownAggregate "MİN") := by
  obtain ⟨function, hfunction, written, field, ending, haggregate, hmem⟩ := isDottedMinimum_iff.mp h
  obtain ⟨m, n, hm, hn, rfl⟩ := spells_and_mem_iff.mp ⟨function, hfunction, haggregate.spells, hmem⟩
  have hupper : upper [m, 'İ', n] = "MİN".toList := by
    obtain rfl | rfl := hm <;> obtain rfl | rfl := hn <;> decide
  have hsplit : splitAggregate? name = some ("MİN", String.ofList field) :=
    splitAggregate?_eq_some_iff.mpr ⟨function, hfunction, _, ending, by simpa using haggregate, hupper⟩
  have hunknown : aggregateWords.lookup "MİN" = none := by decide
  simp only [friendlyName, hsplit, hunknown]

/-- **Naming.**  Every column has a friendly name but a minimum with a dotted capital I. -/
theorem exists_friendlyName_eq_ok_iff : (∃ label, friendlyName name = .ok label) ↔ ¬IsDottedMinimum name := by
  constructor
  · intro hname hdotted
    obtain ⟨label, hlabel⟩ := hname
    rw [friendlyName_of_isDottedMinimum hdotted] at hlabel
    contradiction
  · intro hdotted
    cases hsplit : splitAggregate? name with
    | none => exact ⟨_, friendlyName_of_splitAggregate?_eq_none hsplit⟩
    | some parts =>
        obtain ⟨function, hfunction, written, ending, h, -⟩ := splitAggregate?_eq_some_iff.mp hsplit
        have hdot : 'İ' ∉ written := fun hmem =>
          hdotted (isDottedMinimum_iff.mpr ⟨function, hfunction, written, _, ending, h, hmem⟩)
        obtain ⟨word, -, hname⟩ := friendlyName_of_isAggregate hfunction h hdot
        exact ⟨_, hname⟩

/-! ## What splitting loses -/

/-- Does a name end in a line break behind an aggregate? -/
def HasLineBehind (name : String) : Prop :=
  ∃ function ∈ functions, ∃ written field, IsAggregate name.toList function.toList written field ['\n']

/-- **Splitting whole names.**  An aggregate is a spelling of a known function, a field in parentheses, and nothing or a
line break; it is split into the capitals of the spelling and the field.  So what a name is split into, with the
parentheses, is the whole name, and what is not split is named as a field, exactly if there is no line break behind an
aggregate. -/
theorem splitAggregate?_whole_iff (name : String) :
    (∀ capitals field, splitAggregate? name = some (capitals, field) ↔
        ∃ function ∈ functions, ∃ written ending,
          IsAggregate name.toList function.toList written field.toList ending ∧
            upper written = capitals.toList) ∧
      (((∀ capitals field, splitAggregate? name = some (capitals, field) →
            ∃ written, name = written ++ "(" ++ field ++ ")" ∧ upper written.toList = capitals.toList) ∧
          (splitAggregate? name = none → friendlyName name = .ok ((fieldLabels.lookup name).getD name))) ↔
        ¬HasLineBehind name) := by
  refine ⟨fun _ _ => splitAggregate?_eq_some_iff, ?_⟩
  constructor
  · intro hproperty hline
    obtain ⟨hwhole, -⟩ := hproperty
    obtain ⟨function, hfunction, written, field, h⟩ := hline
    have hsplit : splitAggregate? name = some (String.ofList (upper written), String.ofList field) :=
      splitAggregate?_eq_some_iff.mpr ⟨function, hfunction, written, ['\n'], by simpa using h, by simp⟩
    obtain ⟨whole, hname, -⟩ := hwhole _ _ hsplit
    -- the whole name ends in a parenthesis, and in a line break as well
    have hlast := congrArg (fun s => s.toList.getLast?) hname
    rw [h.name_eq] at hlast
    simp [List.getLast?_cons] at hlast
  · intro hline
    refine ⟨fun capitals field hsplit => ?_, friendlyName_of_splitAggregate?_eq_none⟩
    obtain ⟨function, hfunction, written, ending, h, hupper⟩ := splitAggregate?_eq_some_iff.mp hsplit
    obtain rfl | rfl := h.ending_line
    · refine ⟨String.ofList written, String.toList_inj.mp ?_, by simpa using hupper⟩
      simp [h.name_eq]
    · exact absurd ⟨function, hfunction, written, _, h⟩ hline

/-- A field may have parentheses in it. -/
theorem splitAggregate?_parentheses :
    splitAggregate? "sum(a)(b)" = some ("SUM", "a)(b") ∧
      ∃ written, "sum(a)(b)" = written ++ "(" ++ "a)(b" ++ ")" ∧ upper written.toList = "SUM".toList := by
  have hline : ¬HasLineBehind "sum(a)(b)" := by
    intro h
    obtain ⟨_, -, written, field, h⟩ := h
    have hlast := congrArg List.getLast? h.name_eq
    simp [List.getLast?_cons] at hlast
  have hsplit : splitAggregate? "sum(a)(b)" = some ("SUM", "a)(b") := by decide +kernel
  obtain ⟨hwhole, -⟩ := (splitAggregate?_whole_iff "sum(a)(b)").2.mpr hline
  exact ⟨hsplit, hwhole _ _ hsplit⟩

/-- A line break behind an aggregate is lost. -/
theorem splitAggregate?_line_behind :
    splitAggregate? "SUM(a)\n" = some ("SUM", "a") ∧ friendlyName "SUM(a)\n" = .ok "Total a" ∧
      ¬∃ written, "SUM(a)\n" = written ++ "(" ++ "a" ++ ")" ∧ upper written.toList = "SUM".toList := by
  refine ⟨by decide +kernel, by rfl, ?_⟩
  intro h
  obtain ⟨written, h, -⟩ := h
  have hlast := congrArg (fun s => s.toList.getLast?) h
  simp at hlast

end ColumnLabel.Column
