import ColumnLabel.Proofs.Text.Trim
import ColumnLabel.Text.Quoted

/-!
# ColumnLabel.Proofs.Text.Html

Text in HTML, and back.

An escaped text has no `<` and no `>`, and every `&` in it begins an entity; reading the entities back in one
pass gives the text (`isEscapeOf_escapeHtml`).  Escaping goes character by character.  It comes to the same to
replace the characters in the whole text, one after the other, if `&` is the first of them: the entities that
stand for the others hold it (`replaceInTurn_entities`).
-/

namespace ColumnLabel.Text

/-! ## One character -/

/-- What follows `&` in the entities. -/
def entityNames : List String := ["amp;", "lt;", "gt;"]

/-- Three characters are escaped, each in its own way, and the others are not. -/
@[elab_as_elim]
theorem markupCases {P : Char → Prop} (amp : P '&') (lt : P '<') (gt : P '>')
    (plain : ∀ c, c ≠ '&' → c ≠ '<' → c ≠ '>' → P c) (c : Char) : P c := by
  by_cases hamp : c = '&'
  · rwa [hamp]
  · by_cases hlt : c = '<'
    · rwa [hlt]
    · by_cases hgt : c = '>'
      · rwa [hgt]
      · exact plain c hamp hlt hgt

theorem escapeHtmlChar_plain {c : Char} (hamp : c ≠ '&') (hlt : c ≠ '<') (hgt : c ≠ '>') :
    escapeHtmlChar c = [c] := by
  simp [escapeHtmlChar, hamp, hlt, hgt]

/-- A character stands for itself, or an entity stands for it. -/
theorem escapeHtmlChar_cases (c : Char) :
    (escapeHtmlChar c = [c] ∧ c ≠ '&' ∧ c ≠ '<' ∧ c ≠ '>') ∨
      ∃ name ∈ entityNames, escapeHtmlChar c = '&' :: name.toList := by
  induction c using markupCases with
  | amp => exact .inr ⟨"amp;", by decide, rfl⟩
  | lt => exact .inr ⟨"lt;", by decide, rfl⟩
  | gt => exact .inr ⟨"gt;", by decide, rfl⟩
  | plain c hamp hlt hgt => exact .inl ⟨escapeHtmlChar_plain hamp hlt hgt, hamp, hlt, hgt⟩

/-- The names of entities are plain: they hold none of the characters that are escaped, and no blank. -/
theorem plain_of_mem_entityNames {name : String} (h : name ∈ entityNames) :
    ∀ x ∈ name.toList, x ≠ '&' ∧ x ≠ '<' ∧ x ≠ '>' ∧ isBlank x = false := by
  have hall : (entityNames.flatMap String.toList).all
      (fun x => x != '&' && x != '<' && x != '>' && !isBlank x) = true := by decide
  intro x hx
  have hmem : x ∈ entityNames.flatMap String.toList := List.mem_flatMap.mpr ⟨name, h, hx⟩
  simpa [and_assoc] using List.all_eq_true.mp hall x hmem

theorem escapeHtmlChar_ne_nil (c : Char) : escapeHtmlChar c ≠ [] := by
  obtain ⟨hself, _⟩ | ⟨name, _, hentity⟩ := escapeHtmlChar_cases c
  · rw [hself]
    exact List.cons_ne_nil _ _
  · rw [hentity]
    exact List.cons_ne_nil _ _

/-- Escaping makes no blank. -/
theorem not_blank_of_mem_escapeHtmlChar {c x : Char} (hc : isBlank c = false)
    (hx : x ∈ escapeHtmlChar c) : isBlank x = false := by
  obtain ⟨hself, _⟩ | ⟨name, hname, hentity⟩ := escapeHtmlChar_cases c
  · rw [hself, List.mem_singleton] at hx
    rwa [hx]
  · rw [hentity] at hx
    obtain rfl | hx := List.mem_cons.mp hx
    · decide
    · exact (plain_of_mem_entityNames hname x hx).2.2.2

/-! ## Escaped texts -/

theorem ne_of_mem_escapeHtmlChar {c x : Char} (hx : x ∈ escapeHtmlChar c) : x ≠ '<' ∧ x ≠ '>' := by
  obtain ⟨hself, _, hlt, hgt⟩ | ⟨name, hname, hentity⟩ := escapeHtmlChar_cases c
  · rw [hself, List.mem_singleton] at hx
    rw [hx]
    exact ⟨hlt, hgt⟩
  · rw [hentity] at hx
    obtain rfl | hx := List.mem_cons.mp hx
    · decide
    · obtain ⟨_, hlt, hgt, _⟩ := plain_of_mem_entityNames hname x hx
      exact ⟨hlt, hgt⟩

theorem not_mem_flatMap_escapeHtmlChar (cs : List Char) :
    '<' ∉ cs.flatMap escapeHtmlChar ∧ '>' ∉ cs.flatMap escapeHtmlChar := by
  have hne : ∀ x ∈ cs.flatMap escapeHtmlChar, x ≠ '<' ∧ x ≠ '>' := by
    intro x hx
    obtain ⟨c, _, hx⟩ := List.mem_flatMap.mp hx
    exact ne_of_mem_escapeHtmlChar hx
  exact ⟨fun h => (hne _ h).1 rfl, fun h => (hne _ h).2 rfl⟩

/-- In what stands for one character, a `&` comes first and the name of an entity follows. -/
theorem exists_entity_of_escapeHtmlChar {c : Char} {front rest : List Char}
    (h : escapeHtmlChar c = front ++ '&' :: rest) : ∃ name ∈ entityNames, name.toList = rest := by
  obtain ⟨hself, hamp, _⟩ | ⟨name, hname, hentity⟩ := escapeHtmlChar_cases c
  · rw [hself] at h
    have hmem : '&' ∈ [c] := by simp [h]
    exact absurd (List.mem_singleton.mp hmem).symm hamp
  · rw [hentity] at h
    cases front with
    | nil => exact ⟨name, hname, (List.cons.inj h).2⟩
    | cons d front =>
        have hmem : '&' ∈ name.toList := by simp [(List.cons.inj h).2]
        exact absurd rfl (plain_of_mem_entityNames hname _ hmem).1

/-- Every `&` begins an entity.  Induction on the text: the `&` belongs to what stands for its first character,
or comes later. -/
theorem exists_entity_of_flatMap {cs front rest : List Char}
    (h : cs.flatMap escapeHtmlChar = front ++ '&' :: rest) :
    ∃ name ∈ entityNames, name.toList <+: rest := by
  induction cs generalizing front with
  | nil => simp at h
  | cons c cs ih =>
      rw [List.flatMap_cons] at h
      obtain ⟨later, _, hlater⟩ | ⟨own, hown, hrest⟩ := List.append_eq_append_iff.mp h
      · exact ih hlater
      · cases own with
        | nil =>
            have hfirst : cs.flatMap escapeHtmlChar = [] ++ '&' :: rest := by simpa using hrest.symm
            exact ih hfirst
        | cons d own =>
            obtain ⟨rfl, rfl⟩ := List.cons.inj hrest
            obtain ⟨name, hname, rfl⟩ := exists_entity_of_escapeHtmlChar hown
            exact ⟨name, hname, List.prefix_append _ _⟩

/-- The text that an escaped text stands for: its entities are read back in one pass from left to right. -/
def unescapeHtml : List Char → List Char
  | '&' :: 'a' :: 'm' :: 'p' :: ';' :: cs => '&' :: unescapeHtml cs
  | '&' :: 'l' :: 't' :: ';' :: cs => '<' :: unescapeHtml cs
  | '&' :: 'g' :: 't' :: ';' :: cs => '>' :: unescapeHtml cs
  | c :: cs => c :: unescapeHtml cs
  | [] => []

theorem unescapeHtml_cons {c : Char} (h : c ≠ '&') (cs : List Char) :
    unescapeHtml (c :: cs) = c :: unescapeHtml cs := by
  rw [unescapeHtml]
  all_goals
    intros
    contradiction

theorem unescapeHtml_escapeHtmlChar_append (c : Char) (cs : List Char) :
    unescapeHtml (escapeHtmlChar c ++ cs) = c :: unescapeHtml cs := by
  induction c using markupCases with
  | amp => rfl
  | lt => rfl
  | gt => rfl
  | plain c hamp hlt hgt =>
      rw [escapeHtmlChar_plain hamp hlt hgt, List.singleton_append, unescapeHtml_cons hamp]

theorem unescapeHtml_flatMap (cs : List Char) : unescapeHtml (cs.flatMap escapeHtmlChar) = cs := by
  induction cs with
  | nil => rfl
  | cons c cs ih => rw [List.flatMap_cons, unescapeHtml_escapeHtmlChar_append, ih]

/-! ## One character after the other -/

/-- The text with `new` in place of each `old`. -/
def replaceChar (old : Char) (new cs : List Char) : List Char :=
  cs.flatMap fun c => if c = old then new else [c]

/-- The text after some replacements, one after the other. -/
def replaceInTurn (replacements : List (Char × List Char)) (cs : List Char) : List Char :=
  replacements.foldl (fun cs (old, new) => replaceChar old new cs) cs

/-- The entities for the characters that mean something in HTML. -/
def entities : List (Char × List Char) :=
  [('&', "&amp;".toList), ('<', "&lt;".toList), ('>', "&gt;".toList)]

theorem replaceInTurn_append (replacements : List (Char × List Char)) (cs ds : List Char) :
    replaceInTurn replacements (cs ++ ds) =
      replaceInTurn replacements cs ++ replaceInTurn replacements ds := by
  induction replacements generalizing cs ds with
  | nil => rfl
  | cons r replacements ih =>
      obtain ⟨old, new⟩ := r
      have hstep : ∀ es, replaceInTurn ((old, new) :: replacements) es =
          replaceInTurn replacements (replaceChar old new es) := fun _ => rfl
      rw [hstep, hstep, hstep, ← ih]
      congr 1
      exact List.flatMap_append

theorem replaceInTurn_entities_singleton (c : Char) : replaceInTurn entities [c] = escapeHtmlChar c := by
  induction c using markupCases with
  | amp => rfl
  | lt => rfl
  | gt => rfl
  | plain c hamp hlt hgt =>
      rw [escapeHtmlChar_plain hamp hlt hgt]
      simp [replaceInTurn, entities, replaceChar, hamp, hlt, hgt]

/-- Replacing `&` in the whole text, then `<` and then `>`, is escaping each character. -/
theorem replaceInTurn_entities (cs : List Char) :
    replaceInTurn entities cs = cs.flatMap escapeHtmlChar := by
  induction cs with
  | nil => rfl
  | cons c cs ih =>
      have happend := replaceInTurn_append entities [c] cs
      rw [List.singleton_append] at happend
      rw [happend, replaceInTurn_entities_singleton, ih, List.flatMap_cons]

/-! ## Whole texts -/

theorem toList_escapeHtml (s : String) : (escapeHtml s).toList = s.toList.flatMap escapeHtmlChar := by
  simp [escapeHtml]

/-- A text is a safe form of another one in HTML, from which this one can be had back. -/
structure IsEscapeOf (escaped s : String) : Prop where
  eq_replaceInTurn : escaped.toList = replaceInTurn entities s.toList
  no_markup : '<' ∉ escaped.toList ∧ '>' ∉ escaped.toList
  ampersand : ∀ front rest, escaped.toList = front ++ '&' :: rest →
    ∃ name ∈ entityNames, name.toList <+: rest
  unescape : unescapeHtml escaped.toList = s.toList

/-- **Escaping** is safe and loses nothing. -/
theorem isEscapeOf_escapeHtml (s : String) : IsEscapeOf (escapeHtml s) s where
  eq_replaceInTurn := by rw [toList_escapeHtml, replaceInTurn_entities]
  no_markup := by
    rw [toList_escapeHtml]
    exact not_mem_flatMap_escapeHtmlChar s.toList
  ampersand := by
    intro front rest h
    rw [toList_escapeHtml] at h
    exact exists_entity_of_flatMap h
  unescape := by rw [toList_escapeHtml, unescapeHtml_flatMap]

/-- A text starts and ends without a blank. -/
def IsTrimmed (s : String) : Prop :=
  (∀ c ∈ s.toList.head?, isBlank c = false) ∧ ∀ c ∈ s.toList.getLast?, isBlank c = false

theorem isTrimmed_trimmed (s : String) : IsTrimmed (trimmed s) := by
  rw [IsTrimmed, toList_trimmed, ← trim_eq_self_iff, trim_trim]

/-- Escaping leaves no blank at an end where there was none. -/
theorem IsTrimmed.escapeHtml {s : String} (h : IsTrimmed s) : IsTrimmed (escapeHtml s) := by
  obtain ⟨hhead, hlast⟩ := h
  rw [IsTrimmed, toList_escapeHtml]
  generalize s.toList = cs at hhead hlast
  constructor
  · cases cs with
    | nil => simp
    | cons c cs =>
        intro x hx
        rw [List.flatMap_cons, List.head?_append_of_ne_nil _ (escapeHtmlChar_ne_nil c)] at hx
        exact not_blank_of_mem_escapeHtmlChar (hhead c rfl) (List.mem_of_mem_head? hx)
  · obtain rfl | ⟨front, c, rfl⟩ := List.eq_nil_or_concat' cs
    · simp
    · intro x hx
      rw [List.flatMap_append, List.flatMap_singleton,
        List.getLast?_append_of_ne_nil _ (escapeHtmlChar_ne_nil c)] at hx
      exact not_blank_of_mem_escapeHtmlChar (hlast c (by simp)) (List.mem_of_getLast? hx)

end ColumnLabel.Text
