import ColumnLabel.Proofs.Text.Trim
import ColumnLabel.Template.Tag

/-!
# ColumnLabel.Proofs.Template.Tags

Well-formed tags, and how the scan of a template meets them.

A tag is a text between the marks `{%` and `%}` that says a directive (`Directive.IsTag`).  What it says
holds no `%` and no `}`, so no other mark starts inside it, and wherever it stands the scan takes it for
that tag: what is in front of it and what follows it are scanned as if they stood alone
(`lex_append_isTag`).  Hence the tags among the tokens of a text are the well-formed tags that stand in the
text (`mem_lex_iff`).
-/

namespace ColumnLabel

open Text

namespace Directive

/-! ## Well-formed tags -/

/-- Is a text a tag that says the directive? -/
def IsTag (d : Directive) (raw : List Char) : Prop :=
  ∃ inner, raw = '{' :: '%' :: (inner ++ ['%', '}']) ∧ read? inner = some d

/-- What a text says that is read as a directive: a keyword alone, or a keyword and a condition. -/
theorem words_of_read? {inner : List Char} {d : Directive} (h : read? inner = some d) :
    (d = otherwise ∧ trim inner = "else".toList) ∨ (d = closing ∧ trim inner = "endif".toList) ∨
      ∃ keyword condition, firstWord? (trim inner) = some (keyword, condition) ∧
        condition ≠ [] ∧ '%' ∉ condition ∧ '}' ∉ condition ∧
        (d = opening (String.ofList condition) ∧ keyword = "if".toList ∨
          d = alternative (String.ofList condition) ∧ keyword = "elif".toList) := by
  simp only [read?] at h
  split at h
  · next helse => exact .inl ⟨(Option.some.inj h).symm, helse⟩
  · split at h
    · next hendif => exact .inr (.inl ⟨(Option.some.inj h).symm, hendif⟩)
    · split at h
      · contradiction
      · next keyword condition hword =>
        split at h
        · contradiction
        · next hcondition =>
          simp only [not_or] at hcondition
          obtain ⟨hne, hpercent, hbrace⟩ := hcondition
          refine .inr (.inr ⟨keyword, condition, hword, hne, hpercent, hbrace, ?_⟩)
          split at h
          · next hif => exact .inl ⟨(Option.some.inj h).symm, hif⟩
          · split at h
            · next helif => exact .inr ⟨(Option.some.inj h).symm, helif⟩
            · contradiction

/-- What says a directive holds no character of a closing mark. -/
theorem not_mem_of_read? {inner : List Char} {d : Directive} (h : read? inner = some d) :
    '%' ∉ inner ∧ '}' ∉ inner := by
  suffices htrim : '%' ∉ trim inner ∧ '}' ∉ trim inner from
    ⟨fun hmem => htrim.1 (mem_trim hmem (by decide)), fun hmem => htrim.2 (mem_trim hmem (by decide))⟩
  obtain ⟨_, helse⟩ | ⟨_, hendif⟩ | ⟨keyword, condition, hword, _, hpercent, hbrace, hkeyword⟩ :=
    words_of_read? h
  · rw [helse]
    decide
  · rw [hendif]
    decide
  · have hkeyword : '%' ∉ keyword ∧ '}' ∉ keyword := by
      obtain ⟨_, rfl⟩ | ⟨_, rfl⟩ := hkeyword <;> decide
    exact ⟨fun hmem => (mem_of_firstWord? hword hmem (by decide)).elim hkeyword.1 hpercent,
      fun hmem => (mem_of_firstWord? hword hmem (by decide)).elim hkeyword.2 hbrace⟩

/-- A tag says one thing. -/
theorem IsTag.unique {d d' : Directive} {raw : List Char} (h : d.IsTag raw) (h' : d'.IsTag raw) : d = d' := by
  obtain ⟨inner, rfl, hread⟩ := h
  obtain ⟨inner', heq, hread'⟩ := h'
  obtain rfl : inner = inner' := by simpa using heq
  exact Option.some.inj (hread.symm.trans hread')

theorem IsTag.ne_nil {d : Directive} {raw : List Char} (h : d.IsTag raw) : raw ≠ [] := by
  obtain ⟨_, rfl, _⟩ := h
  simp

end Directive

namespace Token

/-! ## Steps of the scan -/

/-- Outside a tag a character is text, unless it opens one. -/
theorem scan_none_cons {c : Char} {cs : List Char} (h : ¬ ['{', '%'] <+: c :: cs) (held : List Char) :
    scan held none (c :: cs) = scan (c :: held) none cs := by
  rw [scan]
  rintro rest rfl rfl
  exact h (by simp)

/-- Inside a tag a character is kept, unless a mark starts with it. -/
theorem scan_some_cons {c : Char} {cs : List Char} (hopen : ¬ ['{', '%'] <+: c :: cs)
    (hclose : ¬ ['%', '}'] <+: c :: cs) (held inner : List Char) :
    scan held (some inner) (c :: cs) = scan held (some (c :: inner)) cs := by
  rw [scan]
  · rintro rest rfl rfl
    exact hclose (by simp)
  · rintro rest rfl rfl
    exact hopen (by simp)
  · rintro rest rfl rfl
    exact hopen (by simp)

/-- A mark that opens a tag takes the place of an earlier one, unless it shares its `%` with a closing
mark. -/
theorem scan_some_open {cs : List Char} (h : cs.head? ≠ some '}') (held inner : List Char) :
    scan held (some inner) ('{' :: '%' :: cs) = scan (inner ++ '%' :: '{' :: held) (some []) cs := by
  rw [scan]
  rintro rest rfl
  exact h rfl

theorem flush_append (held : List Char) (ts us : List Token) :
    flush held (ts ++ us) = flush held ts ++ us := by
  cases held <;> rfl

/-! ## The scan of a tag -/

/-- An open tag whose text says a directive is closed by the next mark.  Induction on what is left of that
text; `before` is the part that was kept already, the latest character first. -/
theorem scan_some_inner {d : Directive} (before cs : List Char)
    (h : Directive.read? (before.reverse ++ cs) = some d) (held rest : List Char) :
    scan held (some before) (cs ++ '%' :: '}' :: rest) =
      flush held (.tag d ('{' :: '%' :: (before.reverse ++ cs ++ ['%', '}'])) :: scan [] none rest) := by
  induction cs generalizing before with
  | nil =>
      rw [List.append_nil] at h
      rw [List.nil_append, scan]
      simp only [h, List.append_nil]
  | cons c cs ih =>
      have hpercent := (Directive.not_mem_of_read? h).1
      simp only [List.mem_append, List.mem_cons, not_or] at hpercent
      obtain ⟨_, hc, hcs⟩ := hpercent
      have hclose : ¬ ['%', '}'] <+: c :: (cs ++ '%' :: '}' :: rest) := fun hp =>
        hc (List.cons_prefix_cons.mp hp).1
      -- a brace at the end shares the `%` of the closing mark
      by_cases hshared : c = '{' ∧ cs = []
      · obtain ⟨rfl, rfl⟩ := hshared
        rw [List.singleton_append, scan]
        simp only [List.reverse_cons, h]
        simp
      · have hopen : ¬ ['{', '%'] <+: c :: (cs ++ '%' :: '}' :: rest) := by
          intro hp
          obtain ⟨hbrace, hp⟩ := List.cons_prefix_cons.mp hp
          cases cs with
          | nil => exact hshared ⟨hbrace.symm, rfl⟩
          | cons e cs =>
              obtain rfl : '%' = e := by simpa using hp
              simp at hcs
        have hkept : (c :: before).reverse ++ cs = before.reverse ++ c :: cs := by simp
        rw [List.cons_append, scan_some_cons hopen hclose, ih (c :: before) (by rwa [hkept]), hkept]

/-- A tag is taken for one, whatever the scan has in hand. -/
theorem scan_isTag {d : Directive} {raw : List Char} (h : d.IsTag raw) (held rest : List Char)
    (inner : Option (List Char)) :
    scan held inner (raw ++ rest) = scan held inner [] ++ .tag d raw :: scan [] none rest := by
  obtain ⟨said, rfl, hread⟩ := h
  have hscan (held : List Char) : scan held (some []) (said ++ '%' :: '}' :: rest) =
      flush held (.tag d ('{' :: '%' :: (said ++ ['%', '}'])) :: scan [] none rest) :=
    scan_some_inner [] said hread held rest
  have hraw : '{' :: '%' :: (said ++ ['%', '}']) ++ rest = '{' :: '%' :: (said ++ '%' :: '}' :: rest) := by
    simp
  rw [hraw]
  cases inner with
  | none => simp [scan, hscan, ← flush_append]
  | some before =>
      have hbrace := (Directive.not_mem_of_read? hread).2
      have hhead : (said ++ '%' :: '}' :: rest).head? ≠ some '}' := by
        cases said with
        | nil => simp
        | cons c said =>
            intro hc
            obtain rfl : c = '}' := by simpa using hc
            simp at hbrace
      rw [scan_some_open hhead, hscan]
      simp [scan, ← flush_append]

/-- A character that starts no tag, in a text up to a tag, is in front of that tag. -/
theorem exists_eq_cons_of_prefix {d : Directive} {raw : List Char} (h : d.IsTag raw) {c : Char}
    (hc : c ≠ '{') {cs rest : List Char} (hp : [c] <+: cs ++ (raw ++ rest)) : ∃ more, cs = c :: more := by
  cases cs with
  | nil =>
      obtain ⟨_, rfl, _⟩ := h
      exact absurd (List.cons_prefix_cons.mp hp).1 hc
  | cons e cs => exact ⟨cs, by rw [(List.cons_prefix_cons.mp hp).1]⟩

/-- What stands in front of a tag is scanned as if nothing followed it.  The cases are those of the scan;
where it looks ahead, it never looks past the first character of the tag. -/
theorem scan_append_isTag {d : Directive} {raw : List Char} (h : d.IsTag raw) (held : List Char)
    (inner : Option (List Char)) (cs rest : List Char) :
    scan held inner (cs ++ (raw ++ rest)) = scan held inner cs ++ .tag d raw :: scan [] none rest := by
  fun_induction scan held inner cs with
  | case1 held => exact scan_isTag h held rest none
  | case2 held inner => exact scan_isTag h held rest (some inner)
  | case3 held cs ih => simp [scan, ih]
  | case4 held c cs hstart ih =>
      rw [List.cons_append, scan_none_cons _ held, ih]
      intro hp
      obtain ⟨hc, hp⟩ := List.cons_prefix_cons.mp hp
      obtain ⟨more, rfl⟩ := exists_eq_cons_of_prefix h (by decide) hp
      exact hstart more hc.symm rfl
  | case5 held inner cs d hread ih =>
      simp only [List.cons_append, scan, hread, ih, ← flush_append]
  | case6 held inner cs hread ih => simp [scan, hread, ih]
  | case7 held inner cs d hread ih =>
      simp only [List.cons_append, scan, hread, ih, ← flush_append]
  | case8 held inner cs hread ih => simp only [List.cons_append, scan, hread, ih]
  | case9 held inner cs hclose ih =>
      rw [List.cons_append, List.cons_append, scan_some_open _ held inner, ih]
      intro hhead
      obtain ⟨more, hmore⟩ := List.head?_eq_some_iff.mp hhead
      obtain ⟨more, rfl⟩ := exists_eq_cons_of_prefix (c := '}') h (by decide) ⟨more, hmore.symm⟩
      exact hclose more rfl
  | case10 held inner c cs hclose _ hopen ih =>
      rw [List.cons_append, scan_some_cons _ _ held inner, ih]
      · intro hp
        obtain ⟨hc, hp⟩ := List.cons_prefix_cons.mp hp
        obtain ⟨more, rfl⟩ := exists_eq_cons_of_prefix h (by decide) hp
        exact hopen more hc.symm rfl
      · intro hp
        obtain ⟨hc, hp⟩ := List.cons_prefix_cons.mp hp
        obtain ⟨more, rfl⟩ := exists_eq_cons_of_prefix h (by decide) hp
        exact hclose more hc.symm rfl

/-- **Tags part a text**: its tokens are those of what stands in front of a tag, the tag, and those of what
follows it. -/
theorem lex_append_isTag {d : Directive} {raw : List Char} (h : d.IsTag raw) (cs rest : List Char) :
    lex (cs ++ (raw ++ rest)) = lex cs ++ .tag d raw :: lex rest :=
  scan_append_isTag h [] none cs rest

/-! ## The tags among the tokens -/

theorem lex_inj_iff {cs cs' : List Char} : lex cs = lex cs' ↔ cs = cs' := by
  constructor
  · intro h
    rw [← sources_lex cs, h, sources_lex]
  · rintro rfl
    rfl

theorem sources_append (ts us : List Token) : sources (ts ++ us) = sources ts ++ sources us := by
  simp [sources]

theorem tag_mem_flush_iff {d : Directive} {raw held : List Char} {ts : List Token} :
    tag d raw ∈ flush held ts ↔ tag d raw ∈ ts := by
  cases held <;> simp [flush]

/-- The scan takes nothing for a tag but tags. -/
theorem isTag_of_mem_scan {held : List Char} {inner : Option (List Char)} {cs : List Char} {d : Directive}
    {raw : List Char} (h : .tag d raw ∈ scan held inner cs) : d.IsTag raw := by
  fun_induction scan held inner cs with
  | case1 => simp [tag_mem_flush_iff] at h
  | case2 => simp [tag_mem_flush_iff] at h
  | case5 held inner cs d' hread ih =>
      obtain heq | hmem := List.mem_cons.mp (tag_mem_flush_iff.mp h)
      · obtain ⟨rfl, rfl⟩ := Token.tag.inj heq
        exact ⟨inner.reverse, rfl, hread⟩
      · exact ih hmem
  | case7 held inner cs d' hread ih =>
      obtain heq | hmem := List.mem_cons.mp (tag_mem_flush_iff.mp h)
      · obtain ⟨rfl, rfl⟩ := Token.tag.inj heq
        exact ⟨('{' :: inner).reverse, by simp, hread⟩
      · exact ih hmem
  | _ => simp_all

/-- **The tags of a text** are the well-formed tags that stand in it. -/
theorem mem_lex_iff {d : Directive} {raw cs : List Char} :
    tag d raw ∈ lex cs ↔ d.IsTag raw ∧ raw <:+: cs := by
  constructor
  · intro h
    refine ⟨isTag_of_mem_scan h, ?_⟩
    obtain ⟨before, after, hlex⟩ := List.append_of_mem h
    have hsources := sources_lex cs
    rw [hlex, sources_append, sources_cons, source_tag] at hsources
    exact ⟨sources before, sources after, by rw [← hsources, List.append_assoc]⟩
  · intro h
    obtain ⟨htag, before, after, rfl⟩ := h
    rw [List.append_assoc, lex_append_isTag htag]
    simp

end Token

end ColumnLabel
