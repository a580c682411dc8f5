import ColumnLabel.Template.Parse
import Mathlib.Data.List.Infix

/-!
# ColumnLabel.Proofs.Template.Segments

What reading a text can give, and what reading the sources of segments gives back.

A placeholder that was read is innermost: between its marks no other mark starts (`isRead_of_mem_readChars`).
So its source is read as that placeholder again, wherever it stands (`scan_append_placeholder`).  A literal
that holds no `{{` and does not end in a `{` opens nothing.  Segments of these two kinds are read back from
their sources, with neighbouring literals joined (`readChars_sources`).
-/

namespace ColumnLabel

open Text

namespace Segment

/-! ## Segments that can be read -/

/-- The text between the marks of a placeholder: neither mark starts inside it, nor with one character of
the mark around it. -/
structure IsInner (inner : List Char) : Prop where
  no_open : ¬ ['{', '{'] <:+: '{' :: inner
  no_close : ¬ ['}', '}'] <:+: inner ++ ['}']

/-- What reading can give: a placeholder is innermost and its name, which is not blank, is trimmed; no
literal is empty. -/
def IsRead : Segment → Prop
  | literal text => text ≠ ""
  | placeholder name raw => ∃ inner, IsInner inner ∧ trim inner ≠ [] ∧
      name = String.ofList (trim inner) ∧ raw = String.ofList ('{' :: '{' :: (inner ++ ['}', '}']))

/-- What the scan knows about an open placeholder: the characters since its mark, the latest one first,
and those that are still to come. -/
structure IsOpen (inner rest : List Char) : Prop where
  no_open : ¬ ['{', '{'] <:+: inner ++ ['{']
  no_close : ¬ ['}', '}'] <:+: inner
  not_closing : ¬ (inner.head? = some '}' ∧ rest.head? = some '}')

theorem IsOpen.nil (rest : List Char) : IsOpen [] rest := ⟨by decide, by decide, by simp⟩

/-- A placeholder that is closed now is innermost. -/
theorem IsOpen.isInner {inner rest : List Char} (h : IsOpen inner ('}' :: rest)) :
    IsInner inner.reverse := by
  constructor
  · have ho := h.no_open
    rw [← List.reverse_infix] at ho
    simpa using ho
  · intro hc
    rw [← List.reverse_infix] at hc
    simp only [List.reverse_append, List.reverse_reverse, List.reverse_cons, List.reverse_nil,
      List.nil_append, List.cons_append, List.infix_cons_iff] at hc
    rcases hc with hp | hin
    · apply h.not_closing
      cases inner with
      | nil => simp at hp
      | cons c inner => simpa [eq_comm] using hp
    · exact h.no_close hin

/-- A character that starts no mark keeps a placeholder open. -/
theorem IsOpen.cons {inner rest : List Char} {c : Char} (h : IsOpen inner (c :: rest))
    (hopen : ¬ (c = '{' ∧ (inner ++ ['{']).head? = some '{'))
    (hclose : ¬ (c = '}' ∧ rest.head? = some '}')) : IsOpen (c :: inner) rest := by
  constructor
  · rw [List.cons_append, List.infix_cons_iff]
    rintro (hp | hin)
    · apply hopen
      cases inner with
      | nil => simpa [eq_comm] using hp
      | cons d inner => simpa [eq_comm] using hp
    · exact h.no_open hin
  · rw [List.infix_cons_iff]
    rintro (hp | hin)
    · apply h.not_closing
      cases inner with
      | nil => simp at hp
      | cons d inner => simpa [eq_comm, and_comm] using hp
    · exact h.no_close hin
  · simpa using hclose

theorem isRead_of_mem_flush {held : List Char} {rest : List Segment} (h : ∀ s ∈ rest, s.IsRead) :
    ∀ s ∈ flush held rest, s.IsRead := by
  cases held with
  | nil => exact h
  | cons c held =>
      intro s hs
      rcases List.mem_cons.mp hs with rfl | hs
      · simp only [IsRead, ne_eq, ← String.toList_inj]
        simp
      · exact h s hs

/-- The scan gives what reading can give, if the placeholder that is open at its start may be open. -/
theorem isRead_of_mem_scan (held : List Char) (inner : Option (List Char)) (cs : List Char)
    (h : ∀ i ∈ inner, IsOpen i cs) : ∀ s ∈ scan held inner cs, s.IsRead := by
  fun_induction scan held inner cs with
  | case1 => exact isRead_of_mem_flush (by simp)
  | case2 => exact isRead_of_mem_flush (by simp)
  | case3 held cs ih => exact ih (by simp [IsOpen.nil])
  | case4 held c cs _ ih => exact ih (by simp)
  | case5 held inner cs _ ih => exact ih (by simp)
  | case6 held inner cs hname ih =>
      refine isRead_of_mem_flush fun s hs => ?_
      rcases List.mem_cons.mp hs with rfl | hs
      · exact ⟨inner.reverse, (h inner rfl).isInner, hname, rfl, rfl⟩
      · exact ih (by simp) s hs
  | case7 held cs ih => exact ih (by simp [IsOpen.nil])
  | case8 held inner cs ih => exact ih (by simp [IsOpen.nil])
  | case9 held inner c cs hclose hnil hbrace ih =>
      refine ih fun i hi => ?_
      obtain rfl : c :: inner = i := by simpa using hi
      refine (h inner rfl).cons ?_ ?_
      · rintro ⟨rfl, hhead⟩
        cases inner with
        | nil => exact hnil rfl rfl
        | cons d inner =>
            obtain rfl : d = '{' := by simpa using hhead
            exact hbrace inner rfl rfl
      · rintro ⟨rfl, hhead⟩
        cases cs with
        | nil => simp at hhead
        | cons d cs =>
            obtain rfl : d = '}' := by simpa using hhead
            exact hclose cs rfl rfl

/-- Every segment of a text is one that can be read: placeholders are innermost. -/
theorem isRead_of_mem_readChars (cs : List Char) : ∀ s ∈ readChars cs, s.IsRead :=
  isRead_of_mem_scan [] none cs (by simp)

/-! ## Reading sources back -/

/-- A segment in front of which and after which other segments may stand: a literal neither holds a `{{`
nor ends in a `{`. -/
def OpensNothing : Segment → Prop
  | literal text => ¬ ['{', '{'] <:+: text.toList ∧ text.toList.getLast? ≠ some '{'
  | placeholder _ _ => True

instance : DecidablePred OpensNothing
  | literal text =>
    inferInstanceAs (Decidable (¬ ['{', '{'] <:+: text.toList ∧ text.toList.getLast? ≠ some '{'))
  | placeholder _ _ => .isTrue trivial

/-- Outside a placeholder a character is text, unless it opens one. -/
theorem scan_none_cons {c : Char} {cs : List Char} (h : ¬ ['{', '{'] <+: c :: cs) (held : List Char) :
    scan held none (c :: cs) = scan (c :: held) none cs := by
  rw [scan]
  rintro rest rfl rfl
  exact h (by simp)

/-- A text that opens nothing is text, whatever follows. -/
theorem scan_append_text {cs : List Char} (h : ¬ ['{', '{'] <:+: cs) (hlast : cs.getLast? ≠ some '{')
    (held rest : List Char) : scan held none (cs ++ rest) = scan (cs.reverse ++ held) none rest := by
  induction cs generalizing held with
  | nil => simp
  | cons c cs ih =>
      rw [List.infix_cons_iff, not_or] at h
      have hstart : ¬ ['{', '{'] <+: c :: (cs ++ rest) := by
        intro hp
        cases cs with
        | nil => exact hlast (by simpa [eq_comm] using (List.cons_prefix_cons.mp hp).1)
        | cons d cs => exact h.1 (by simpa using hp)
      have hlast' : cs.getLast? ≠ some '{' := by
        cases cs with
        | nil => simp
        | cons d cs => simpa using hlast
      rw [List.cons_append, scan_none_cons hstart, ih h.2 hlast']
      simp

/-- Inside a placeholder a character is kept, unless a mark starts with it. -/
theorem scan_some_cons {inner : List Char} {c : Char} {cs : List Char}
    (hopen : ¬ (c = '{' ∧ (inner ++ ['{']).head? = some '{')) (hclose : ¬ ['}', '}'] <+: c :: cs)
    (held : List Char) : scan held (some inner) (c :: cs) = scan held (some (c :: inner)) cs := by
  rw [scan]
  · rintro rest rfl rfl
    exact hclose (by simp)
  · rintro rfl rfl
    exact hopen (by simp)
  · rintro rest rfl rfl
    exact hopen (by simp)

/-- An innermost text is kept up to the closing mark.  Induction on what is left of it; `before` is the
part that was kept already, the latest character first. -/
theorem scan_some_append (cs before : List Char) (h : IsInner (before.reverse ++ cs))
    (held rest : List Char) :
    scan held (some before) (cs ++ '}' :: '}' :: rest) =
      scan held (some (cs.reverse ++ before)) ('}' :: '}' :: rest) := by
  induction cs generalizing before with
  | nil => rfl
  | cons c cs ih =>
      have hopen : ¬ (c = '{' ∧ (before ++ ['{']).head? = some '{') := by
        rintro ⟨rfl, hhead⟩
        apply h.no_open
        cases before with
        | nil => exact ⟨[], cs, by simp⟩
        | cons d before =>
            obtain rfl : d = '{' := by simpa using hhead
            exact ⟨'{' :: before.reverse, cs, by simp⟩
      have hclose : ¬ ['}', '}'] <+: c :: (cs ++ '}' :: '}' :: rest) := by
        intro hp
        apply h.no_close
        obtain ⟨hc, hp⟩ := List.cons_prefix_cons.mp hp
        cases cs with
        | nil => exact ⟨before.reverse, [], by simp [← hc]⟩
        | cons d cs =>
            have hd : '}' = d := by simpa using hp
            exact ⟨before.reverse, cs ++ ['}'], by simp [← hc, ← hd]⟩
      rw [List.cons_append, scan_some_cons hopen hclose, ih (c :: before) (by simpa using h)]
      simp

/-- A closing mark makes a placeholder of what is open, unless its name is blank. -/
theorem scan_some_close {inner : List Char} (hname : trim inner.reverse ≠ []) (held cs : List Char) :
    scan held (some inner) ('}' :: '}' :: cs) =
      flush held (placeholder (String.ofList (trim inner.reverse))
        (String.ofList ('{' :: '{' :: (inner.reverse ++ ['}', '}']))) :: scan [] none cs) := by
  rw [scan]
  cases ht : trim inner.reverse with
  | nil => exact absurd ht hname
  | cons c cs => rfl

/-- The source of a placeholder that was read is read as that placeholder, whatever stands around it. -/
theorem scan_append_placeholder {name raw : String} (h : (placeholder name raw).IsRead)
    (held rest : List Char) :
    scan held none (raw.toList ++ rest) = flush held (placeholder name raw :: scan [] none rest) := by
  obtain ⟨inner, hinner, hname, rfl, rfl⟩ := h
  have hkept := scan_some_append inner [] (by simpa using hinner) held rest
  have hraw : (String.ofList ('{' :: '{' :: (inner ++ ['}', '}']))).toList ++ rest =
      '{' :: '{' :: (inner ++ '}' :: '}' :: rest) := by simp
  rw [hraw, scan, hkept, scan_some_close (by simpa using hname)]
  simp

theorem flush_eq_append (held : List Char) (rest : List Segment) :
    flush held rest = flush held [] ++ rest := by
  cases held <;> rfl

/-- A mark inside an open placeholder makes text of the one before it. -/
theorem scan_some_open (held inner cs : List Char) :
    scan held (some inner) ('{' :: '{' :: cs) =
      scan (inner ++ '{' :: '{' :: held) none ('{' :: '{' :: cs) := by
  cases inner with
  | nil => simp [scan]
  | cons c inner =>
      by_cases hc : c = '{'
      · simp [hc, scan]
      · rw [scan_some_cons (by simp [hc]) (by simp)]
        simp [scan]

/-- It is read so even where another placeholder is open, which becomes text. -/
theorem scan_append_placeholder_append {name raw : String} (h : (placeholder name raw).IsRead)
    (held : List Char) (inner? : Option (List Char)) (cs rest : List Char) :
    scan held inner? (cs ++ (raw.toList ++ rest)) =
      scan held inner? cs ++ placeholder name raw :: readChars rest := by
  obtain ⟨tail, htail⟩ : ∃ tail, raw.toList ++ rest = '{' :: '{' :: tail := by
    obtain ⟨inner, _, _, _, rfl⟩ := h
    exact ⟨inner ++ '}' :: '}' :: rest, by simp⟩
  fun_induction scan held inner? cs with
  | case1 held =>
      rw [List.nil_append, scan_append_placeholder h, flush_eq_append]
      rfl
  | case2 held inner =>
      rw [List.nil_append, htail, scan_some_open, ← htail, scan_append_placeholder h, flush_eq_append]
      rfl
  | case3 held cs ih => exact ih
  | case4 held c cs hopen ih =>
      rw [List.cons_append, ← ih]
      cases cs with
      | nil =>
          -- a brace in front of the mark stays text
          by_cases hc : c = '{'
          · simp [hc, htail, scan]
          · exact scan_none_cons (by simp [Ne.symm hc]) held
      | cons d cs =>
          refine scan_none_cons ?_ held
          intro hp
          obtain ⟨rfl, rfl⟩ : '{' = c ∧ '{' = d := by simpa using hp
          exact hopen cs rfl rfl
  | case5 held inner cs hname ih =>
      rw [List.cons_append, List.cons_append, scan, hname]
      exact ih
  | case6 held inner cs hname ih =>
      rw [List.cons_append, List.cons_append, scan_some_close hname, flush_eq_append,
        flush_eq_append held (_ :: scan [] none cs), ih, List.append_assoc, List.cons_append]
  | case7 held cs ih => exact ih
  | case8 held inner cs ih => exact ih
  | case9 held inner c cs hclose hnil hbrace ih =>
      rw [List.cons_append, scan_some_cons, ih]
      · rintro ⟨rfl, hhead⟩
        cases inner with
        | nil => exact hnil rfl rfl
        | cons d inner =>
            obtain rfl : d = '{' := by simpa using hhead
            exact hbrace inner rfl rfl
      · intro hp
        cases cs with
        | nil => simp [htail] at hp
        | cons d cs =>
            obtain ⟨rfl, rfl⟩ : '}' = c ∧ '}' = d := by simpa using hp
            exact hclose cs rfl rfl

/-- So it parts what is read before it from what is read after it. -/
theorem read_append_placeholder {name raw : String} (h : (placeholder name raw).IsRead)
    (before after : String) :
    read (before ++ (raw ++ after)) = read before ++ placeholder name raw :: read after := by
  simp only [read, String.toList_append]
  exact scan_append_placeholder_append h [] none before.toList after.toList

theorem sources_append (ss ts : List Segment) : sources (ss ++ ts) = sources ss ++ sources ts := by
  induction ss with
  | nil => simp
  | cons s ss ih => simp [ih, String.append_assoc]

/-- Segments with neighbouring literals made one; `held` is literal text in front of them, the latest
character first. -/
def joinLiterals (held : List Char) : List Segment → List Segment
  | [] => flush held []
  | literal text :: segments => joinLiterals (text.toList.reverse ++ held) segments
  | placeholder name raw :: segments => flush held (placeholder name raw :: joinLiterals [] segments)

theorem scan_sources (segments : List Segment) (h : ∀ s ∈ segments, s.IsRead)
    (hopens : ∀ s ∈ segments, s.OpensNothing) (held : List Char) :
    scan held none (sources segments).toList = joinLiterals held segments := by
  induction segments generalizing held with
  | nil => simp [scan, joinLiterals]
  | cons s segments ih =>
      have ih' := ih (fun s hs => h s (List.mem_cons_of_mem _ hs))
        (fun s hs => hopens s (List.mem_cons_of_mem _ hs))
      rw [sources_cons, String.toList_append]
      cases s with
      | literal text =>
          obtain ⟨hno, hlast⟩ := hopens _ List.mem_cons_self
          rw [source_literal, scan_append_text hno hlast, ih', joinLiterals]
      | placeholder name raw =>
          rw [source_placeholder, scan_append_placeholder (h _ List.mem_cons_self), ih', joinLiterals]

/-- **Segments are read back from their sources**: innermost placeholders as they are, and between them
the literals, if none of these opens a placeholder. -/
theorem read_sources (segments : List Segment) (h : ∀ s ∈ segments, s.IsRead)
    (hopens : ∀ s ∈ segments, s.OpensNothing) : read (sources segments) = joinLiterals [] segments :=
  scan_sources segments h hopens []

end Segment

/-! ## Segments of a template -/

namespace Template

/-- The segments of a node: its own, or those of all its bodies. -/
def segmentsOf : Node → List Segment
  | .segment s => [s]
  | .block branches => branches.flatMap Branch.body

/-- The segments of a template, outside its blocks and in all their bodies. -/
def allSegments (t : Template) : List Segment := t.flatMap segmentsOf

@[simp] theorem allSegments_nil : allSegments [] = [] := rfl

@[simp] theorem allSegments_cons (n : Node) (t : Template) :
    allSegments (n :: t) = segmentsOf n ++ allSegments t := List.flatMap_cons

@[simp] theorem allSegments_append (t u : Template) :
    allSegments (t ++ u) = allSegments t ++ allSegments u := List.flatMap_append

@[simp] theorem allSegments_segments (cs : List Char) : allSegments (segments cs) = Segment.readChars cs := by
  simp [allSegments, segments, List.flatMap_map, segmentsOf]

/-- The segments of a body were read. -/
theorem isRead_of_mem_branch {condition : Option String} {body : List Char} :
    ∀ s ∈ (branch condition body).body, s.IsRead :=
  Segment.isRead_of_mem_readChars (trim body)

/-- What is found from within a block holds only segments that were read: its branches, and the nodes
after it. -/
def FoundRead (found : List Char × List Branch × List Char × List Node) : Prop :=
  (∀ s ∈ found.2.1.flatMap Branch.body, s.IsRead) ∧ ∀ s ∈ allSegments found.2.2.2, s.IsRead

theorem FoundRead.cons_branch {found : List Char × List Branch × List Char × List Node}
    (h : FoundRead found) (condition : Option String) (text body : List Char) :
    FoundRead (text, branch condition body :: found.2.1, found.2.2) := by
  refine ⟨fun s hs => ?_, h.2⟩
  rw [List.flatMap_cons, List.mem_append] at hs
  rcases hs with hs | hs
  · exact isRead_of_mem_branch s hs
  · exact h.1 s hs

/-- Whatever the tokens, the segments of their nodes were read.  Induction on the tokens, for both states
of the reader at once. -/
theorem isRead_of_mem_tokens (tokens : List Token) :
    (∀ s ∈ allSegments (outside tokens).2, s.IsRead) ∧
      ∀ hasElse, ∀ found ∈ inside hasElse tokens, FoundRead found := by
  induction tokens with
  | nil => simp [outside, inside, allSegments]
  | cons token tokens ih =>
      obtain ⟨hout, hin⟩ := ih
      have hskip : ∀ hasElse (chars : List Char), ∀ found ∈ (inside hasElse tokens).map
          (fun found => (chars ++ found.1, found.2)), FoundRead found := by
        intro hasElse chars found hf
        obtain ⟨found', hf', rfl⟩ := Option.map_eq_some_iff.mp hf
        exact hin hasElse found' hf'
      have hbranch : ∀ hasElse condition, ∀ found ∈ (inside hasElse tokens).map
          (fun found => (([] : List Char), branch condition found.1 :: found.2.1, found.2.2)),
          FoundRead found := by
        intro hasElse condition found hf
        obtain ⟨found', hf', rfl⟩ := Option.map_eq_some_iff.mp hf
        exact (hin hasElse found' hf').cons_branch condition [] found'.1
      cases token with
      | text chars => exact ⟨hout, fun hasElse => hskip hasElse chars⟩
      | tag d raw =>
          cases d with
          | opening condition =>
              refine ⟨?_, fun hasElse => hskip hasElse raw⟩
              rw [outside]
              cases hf : inside false tokens with
              | none => simp
              | some found =>
                  obtain ⟨body, branches, text, nodes⟩ := found
                  have hfound := (hin false _ hf).cons_branch (some condition) [] body
                  intro s hs
                  simp only [allSegments_cons, allSegments_append, allSegments_segments,
                    List.mem_append] at hs
                  rcases hs with hs | hs | hs
                  · exact hfound.1 s hs
                  · exact Segment.isRead_of_mem_readChars text s hs
                  · exact hfound.2 s hs
          | alternative condition => exact ⟨hout, fun hasElse => hbranch hasElse (some condition)⟩
          | otherwise =>
              refine ⟨hout, fun hasElse => ?_⟩
              cases hasElse with
              | false => exact hbranch true none
              | true => exact hskip true raw
          | closing =>
              refine ⟨hout, fun hasElse found hf => ?_⟩
              obtain rfl : ([], [], outside tokens) = found := by simpa [inside] using hf
              exact ⟨by simp, hout⟩

/-- Every segment of a template, wherever it stands, was read. -/
theorem isRead_of_mem_parse (text : String) : ∀ s ∈ allSegments (parse text), s.IsRead := by
  intro s hs
  simp only [parse, ofTokens, allSegments_append, allSegments_segments, List.mem_append] at hs
  rcases hs with hs | hs
  · exact Segment.isRead_of_mem_readChars _ s hs
  · exact (isRead_of_mem_tokens _).1 s hs

end Template

end ColumnLabel
