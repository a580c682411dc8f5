/-!
# ColumnLabel.Text.Search

Finding a mark in a text.  `cutAtFirst? mark cs` parts `cs` at the first place where `mark` stands, into
what is in front of it and what follows it; `dropPrefix?` takes it off the start.  `pieces` parts a text at
every place where a character stands.

The main statements are that a cut loses nothing (`eq_of_cutAtFirst?_eq_some`), that every text which
holds the mark is cut (`isSome_cutAtFirst?_append`), and that the pieces with the character between them
are the text (`intercalate_pieces`).
-/

namespace ColumnLabel.Text

/-- What follows `mark` at the start of a text, if `mark` stands there. -/
def dropPrefix? : (mark : List Char) → List Char → Option (List Char)
  | [], cs => some cs
  | _ :: _, [] => none
  | m :: mark, c :: cs => if m = c then dropPrefix? mark cs else none

theorem dropPrefix?_append (mark cs : List Char) : dropPrefix? mark (mark ++ cs) = some cs := by
  induction mark with
  | nil => rfl
  | cons m mark ih => simp [dropPrefix?, ih]

theorem eq_of_dropPrefix?_eq_some {mark cs rest : List Char} (h : dropPrefix? mark cs = some rest) :
    cs = mark ++ rest := by
  fun_induction dropPrefix? mark cs with
  | case1 => simpa using h
  | case2 => simp at h
  | case3 mark c cs ih => simp [ih h]
  | case4 => simp at h

/-- What stands in front of the first `mark` of a text, and what follows that mark. -/
def cutAtFirst? (mark : List Char) : List Char → Option (List Char × List Char)
  | [] => (dropPrefix? mark []).map ([], ·)
  | c :: cs =>
    match dropPrefix? mark (c :: cs) with
    | some rest => some ([], rest)
    | none => (cutAtFirst? mark cs).map fun (before, rest) => (c :: before, rest)

/-- A cut loses nothing but the mark. -/
theorem eq_of_cutAtFirst?_eq_some {mark cs before rest : List Char}
    (h : cutAtFirst? mark cs = some (before, rest)) : cs = before ++ mark ++ rest := by
  induction cs generalizing before rest with
  | nil =>
    obtain ⟨r, hr, he⟩ := Option.map_eq_some_iff.1 h
    simp only [Prod.mk.injEq] at he
    obtain ⟨rfl, rfl⟩ := he
    simpa using eq_of_dropPrefix?_eq_some hr
  | cons c cs ih =>
    simp only [cutAtFirst?] at h
    split at h
    · next hr =>
      simp only [Option.some.injEq, Prod.mk.injEq] at h
      obtain ⟨rfl, rfl⟩ := h
      simpa using eq_of_dropPrefix?_eq_some hr
    · obtain ⟨⟨b, r⟩, hb, he⟩ := Option.map_eq_some_iff.1 h
      simp only [Prod.mk.injEq] at he
      obtain ⟨rfl, rfl⟩ := he
      simp [ih hb]

/-- A text that holds the mark is cut. -/
theorem isSome_cutAtFirst?_append (mark before rest : List Char) :
    (cutAtFirst? mark (before ++ mark ++ rest)).isSome = true := by
  induction before with
  | nil =>
    have h := dropPrefix?_append mark rest
    simp only [List.nil_append]
    cases hm : mark ++ rest with
    | nil => rw [hm] at h; simp [cutAtFirst?, h]
    | cons c cs => rw [hm] at h; simp [cutAtFirst?, h]
  | cons c before ih =>
    simp only [List.cons_append, cutAtFirst?]
    split
    · rfl
    · simpa using ih

/-- Does a text hold the character zero?  The system ends its own texts with it and takes none inside. -/
def holdsNul (s : String) : Bool := s.toList.contains (Char.ofNat 0)

/-- The pieces of a text between the places where a character stands. -/
def pieces (mark : Char) : List Char → List (List Char)
  | [] => [[]]
  | c :: cs =>
    if c = mark then [] :: pieces mark cs
    else
      match pieces mark cs with
      | [] => [[c]]
      | piece :: rest => (c :: piece) :: rest

theorem pieces_ne_nil (mark : Char) (cs : List Char) : pieces mark cs ≠ [] := by
  cases cs with
  | nil => simp [pieces]
  | cons c cs =>
    simp only [pieces]
    split
    · simp
    · split <;> simp

/-- The pieces with the character between them are the text. -/
theorem intercalate_pieces (mark : Char) (cs : List Char) :
    [mark].intercalate (pieces mark cs) = cs := by
  induction cs with
  | nil => rfl
  | cons c cs ih =>
    cases hp : pieces mark cs with
    | nil => exact absurd hp (pieces_ne_nil mark cs)
    | cons piece rest =>
      rw [hp] at ih
      by_cases hc : c = mark
      · simp only [pieces, hc, if_true, hp]
        rw [← ih]
        rfl
      · simp only [pieces, hc, if_false, hp]
        rw [← ih]
        cases rest <;> rfl

/-- The pieces have no characters of their own. -/
theorem mem_of_mem_pieces {mark x : Char} {cs piece : List Char} (hp : piece ∈ pieces mark cs)
    (hx : x ∈ piece) : x ∈ cs := by
  induction cs generalizing piece with
  | nil => simp_all [pieces]
  | cons c cs ih =>
    by_cases hc : c = mark
    · simp only [pieces, hc, if_true, List.mem_cons] at hp
      rcases hp with rfl | hp
      · simp at hx
      · exact List.mem_cons_of_mem c (ih hp hx)
    · cases hps : pieces mark cs with
      | nil => exact absurd hps (pieces_ne_nil mark cs)
      | cons first rest =>
        simp only [pieces, hc, if_false, hps, List.mem_cons] at hp
        rcases hp with rfl | hp
        · rcases List.mem_cons.1 hx with rfl | hx
          · simp
          · exact List.mem_cons_of_mem c (ih (by simp [hps]) hx)
        · exact List.mem_cons_of_mem c (ih (by simp [hps, hp]) hx)

end ColumnLabel.Text
