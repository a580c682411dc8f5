import ColumnLabel.Label.Fill
import ColumnLabel.Proofs.Template.Tags

/-!
# ColumnLabel.Proofs.Template.Layout

Where the blocks of a template stand in its text.

A block starts at an `{% if %}` and ends with the first `{% endif %}` after it; the next one starts at the
first `{% if %}` after that.  `Layout` parts a text in this way, with nothing said of tokens or of how a
template is read, and every text has exactly one such layout (`exists_layout`, `layout_unique`).  The main
statement is that reading a template follows it (`exists_layout_parse_eq_nodes`): between the blocks the
nodes are the segments of the text, each block is one node, the one that its own text is read as, and no
character is lost.
-/

namespace ColumnLabel

namespace Token

/-- Is a token an `{% if %}`? -/
def isOpening : Token → Bool
  | tag (.opening _) _ => true
  | _ => false

/-- Is a token an `{% endif %}`? -/
def isClosing : Token → Bool
  | tag .closing _ => true
  | _ => false

end Token

namespace Template

/-! ## Layouts -/

/-- Does an `{% if %}` stand in the text? -/
def HoldsOpening (cs : List Char) : Prop :=
  ∃ condition raw, (Directive.opening condition).IsTag raw ∧ raw <:+: cs

/-- Does an `{% endif %}` stand in the text? -/
def HoldsClosing (cs : List Char) : Prop :=
  ∃ raw, Directive.closing.IsTag raw ∧ raw <:+: cs

/-- Is there an `{% if %}` in the text that an `{% endif %}` follows? -/
def HoldsBlock (cs : List Char) : Prop :=
  ∃ front condition opening rest, cs = front ++ (opening ++ rest) ∧
    (Directive.opening condition).IsTag opening ∧ HoldsClosing rest

/-- The text of a block in three parts. -/
structure Span where
  opening : List Char
  body : List Char
  closing : List Char
  deriving DecidableEq, Repr

/-- The text of a block. -/
def Span.source (s : Span) : List Char := s.opening ++ (s.body ++ s.closing)

/-- A block runs from an `{% if %}` to the first `{% endif %}` after it. -/
structure Span.IsBlock (s : Span) : Prop where
  opening : ∃ condition, (Directive.opening condition).IsTag s.opening
  body : ¬ HoldsClosing s.body
  closing : Directive.closing.IsTag s.closing

/-- A text parted into blocks, with what stands in front of each of them and behind the last. -/
inductive Layout where
  | last (text : List Char)
  | block (front : List Char) (span : Span) (rest : Layout)
  deriving DecidableEq, Repr

namespace Layout

/-- The text that is parted. -/
def source : Layout → List Char
  | last text => text
  | block front span rest => front ++ (span.source ++ rest.source)

/-- The blocks in order. -/
def spans : Layout → List Span
  | last _ => []
  | block _ span rest => span :: rest.spans

/-- Each block starts at the first `{% if %}` after the block in front of it and ends with the first
`{% endif %}` after that; behind the last block there is none any more. -/
def IsExact : Layout → Prop
  | last text => ¬ HoldsBlock text
  | block front span rest => ¬ HoldsOpening front ∧ span.IsBlock ∧ rest.IsExact

/-- The nodes of the parts in order, each part read by itself. -/
def nodes : Layout → Template
  | last text => segments text
  | block front span rest => segments front ++ (parse (String.ofList span.source) ++ rest.nodes)

end Layout

/-- The sources of the segments of a template, with the given texts in the places of its blocks. -/
def weave : Template → List (List Char) → List Char
  | [], _ => []
  | .segment s :: nodes, texts => s.source.toList ++ weave nodes texts
  | .block _ :: nodes, text :: texts => text ++ weave nodes texts
  | .block _ :: nodes, [] => weave nodes []

/-! ## Tags among the tokens -/

theorem holdsOpening_iff {cs : List Char} :
    HoldsOpening cs ↔ ∃ t ∈ Token.lex cs, t.isOpening = true := by
  constructor
  · intro h
    obtain ⟨condition, raw, htag⟩ := h
    exact ⟨.tag (.opening condition) raw, Token.mem_lex_iff.mpr htag, rfl⟩
  · intro h
    obtain ⟨t, ht, hopening⟩ := h
    cases t with
    | text chars => contradiction
    | tag d raw =>
        cases d with
        | opening condition => exact ⟨condition, raw, Token.mem_lex_iff.mp ht⟩
        | _ => contradiction

theorem holdsClosing_iff {cs : List Char} :
    HoldsClosing cs ↔ ∃ t ∈ Token.lex cs, t.isClosing = true := by
  constructor
  · intro h
    obtain ⟨raw, htag⟩ := h
    exact ⟨.tag .closing raw, Token.mem_lex_iff.mpr htag, rfl⟩
  · intro h
    obtain ⟨t, ht, hclosing⟩ := h
    cases t with
    | text chars => contradiction
    | tag d raw =>
        cases d with
        | closing => exact ⟨raw, Token.mem_lex_iff.mp ht⟩
        | _ => contradiction

instance (cs : List Char) : Decidable (HoldsOpening cs) := decidable_of_iff _ holdsOpening_iff.symm

instance (cs : List Char) : Decidable (HoldsClosing cs) := decidable_of_iff _ holdsClosing_iff.symm

theorem HoldsClosing.mono {cs ds : List Char} (h : HoldsClosing cs) (hin : cs <:+: ds) : HoldsClosing ds := by
  obtain ⟨raw, hraw, hin'⟩ := h
  exact ⟨raw, hraw, hin'.trans hin⟩

theorem HoldsBlock.holdsClosing {cs : List Char} (h : HoldsBlock cs) : HoldsClosing cs := by
  obtain ⟨front, _, opening, rest, rfl, _, hclosing⟩ := h
  exact hclosing.mono ⟨front ++ opening, [], by simp⟩

theorem forall_isOpening_eq_false {cs : List Char} (h : ¬ HoldsOpening cs) :
    ∀ t ∈ Token.lex cs, t.isOpening = false := fun t ht =>
  Bool.eq_false_iff.mpr fun hopening => h (holdsOpening_iff.mpr ⟨t, ht, hopening⟩)

theorem forall_isClosing_eq_false {cs : List Char} (h : ¬ HoldsClosing cs) :
    ∀ t ∈ Token.lex cs, t.isClosing = false := fun t ht =>
  Bool.eq_false_iff.mpr fun hclosing => h (holdsClosing_iff.mpr ⟨t, ht, hclosing⟩)

/-! ## First places -/

section

variable {α : Type} {p : α → Bool} {as bs as' bs' : List α} {a a' : α}

/-- What follows an item of some kind is part of what follows the first item of that kind. -/
theorem suffix_of_append_cons_eq (has : ∀ x ∈ as, p x = false) (ha' : p a' = true)
    (h : as ++ a :: bs = as' ++ a' :: bs') : bs' <:+ bs := by
  obtain ⟨cs, rfl, hcs⟩ | ⟨cs, rfl, hcs⟩ := List.append_eq_append_iff.mp h
  · cases cs with
    | nil => exact (List.cons.inj hcs).2 ▸ List.suffix_refl _
    | cons c cs => exact ⟨cs ++ [a'], by simp [(List.cons.inj hcs).2]⟩
  · cases cs with
    | nil => exact (List.cons.inj hcs).2 ▸ List.suffix_refl _
    | cons c cs =>
        obtain rfl := (List.cons.inj hcs).1
        exact absurd ha' (by simp [has a' (by simp)])

/-- A list has one first item of some kind. -/
theorem append_cons_inj_of_first (has : ∀ x ∈ as, p x = false) (ha : p a = true)
    (has' : ∀ x ∈ as', p x = false) (ha' : p a' = true) (h : as ++ a :: bs = as' ++ a' :: bs') :
    as = as' ∧ a = a' ∧ bs = bs' := by
  have hbs : bs = bs' := (suffix_of_append_cons_eq has' ha h.symm).eq_of_length_le
    (suffix_of_append_cons_eq has ha' h).length_le
  obtain ⟨rfl, hcons⟩ := List.append_inj' h (by simp [hbs])
  exact ⟨rfl, List.cons.inj hcons⟩

end

/-- Of the texts of some kind that stand in a text, one is the first. -/
theorem exists_first {P : List Char → Prop} (hne : ∀ raw, P raw → raw ≠ []) {cs : List Char}
    (h : ∃ raw, P raw ∧ raw <:+: cs) :
    ∃ front first rest, cs = front ++ (first ++ rest) ∧ P first ∧ ∀ raw, P raw → ¬ raw <:+: front := by
  induction cs with
  | nil =>
      obtain ⟨raw, hraw, hin⟩ := h
      exact absurd (List.infix_nil.mp hin) (hne raw hraw)
  | cons c cs ih =>
      by_cases hstart : ∃ first, P first ∧ first <+: c :: cs
      · obtain ⟨first, hfirst, rest, hrest⟩ := hstart
        exact ⟨[], first, rest, hrest.symm, hfirst,
          fun raw hraw hin => hne raw hraw (List.infix_nil.mp hin)⟩
      · obtain ⟨raw, hraw, hin⟩ := h
        have hlater : raw <:+: cs := (List.infix_cons_iff.mp hin).resolve_left
          fun hp => hstart ⟨raw, hraw, hp⟩
        obtain ⟨front, first, rest, rfl, hfirst, hnone⟩ := ih ⟨raw, hraw, hlater⟩
        refine ⟨c :: front, first, rest, rfl, hfirst, fun raw' hraw' hin' => ?_⟩
        obtain hp | hin' := List.infix_cons_iff.mp hin'
        · exact hstart ⟨raw', hraw', hp.trans ⟨first ++ rest, rfl⟩⟩
        · exact hnone raw' hraw' hin'

/-! ## Every text has one layout -/

/-- A text with an `{% if %}` has a first one. -/
theorem exists_first_opening {cs : List Char} (h : HoldsOpening cs) :
    ∃ front condition opening rest, cs = front ++ (opening ++ rest) ∧
      (Directive.opening condition).IsTag opening ∧ ¬ HoldsOpening front := by
  obtain ⟨condition, raw, hraw, hin⟩ := h
  obtain ⟨front, opening, rest, heq, ⟨condition, hopening⟩, hnone⟩ :=
    exists_first (P := fun raw => ∃ condition, (Directive.opening condition).IsTag raw)
      (fun _ ⟨_, hraw⟩ => hraw.ne_nil) ⟨raw, ⟨condition, hraw⟩, hin⟩
  exact ⟨front, condition, opening, rest, heq, hopening,
    fun ⟨condition, raw, hraw, hin⟩ => hnone raw ⟨condition, hraw⟩ hin⟩

/-- A text with an `{% endif %}` has a first one. -/
theorem exists_first_closing {cs : List Char} (h : HoldsClosing cs) :
    ∃ front closing rest, cs = front ++ (closing ++ rest) ∧
      Directive.closing.IsTag closing ∧ ¬ HoldsClosing front := by
  obtain ⟨front, closing, rest, heq, hclosing, hnone⟩ := exists_first (fun _ hraw => hraw.ne_nil) h
  exact ⟨front, closing, rest, heq, hclosing, fun ⟨raw, hraw, hin⟩ => hnone raw hraw hin⟩

/-- A text with a block has a first one. -/
theorem exists_first_block {cs : List Char} (h : HoldsBlock cs) :
    ∃ front span rest, cs = front ++ (Span.source span ++ rest) ∧ ¬ HoldsOpening front ∧ span.IsBlock := by
  obtain ⟨front', condition', opening', rest', hcs, hopening', hclosing'⟩ := h
  have hin : opening' <:+: cs := ⟨front', rest', by rw [hcs, List.append_assoc]⟩
  obtain ⟨front, condition, opening, rest, rfl, hopening, hfront⟩ :=
    exists_first_opening ⟨condition', opening', hopening', hin⟩
  -- the `{% endif %}` follows the first `{% if %}` too
  rw [← Token.lex_inj_iff, Token.lex_append_isTag hopening, Token.lex_append_isTag hopening'] at hcs
  have hsuffix := suffix_of_append_cons_eq (forall_isOpening_eq_false hfront) rfl hcs
  have hclosing : HoldsClosing rest := by
    obtain ⟨t, ht, hclosing⟩ := holdsClosing_iff.mp hclosing'
    exact holdsClosing_iff.mpr ⟨t, hsuffix.subset ht, hclosing⟩
  obtain ⟨body, closing, after, rfl, hclosing, hbody⟩ := exists_first_closing hclosing
  exact ⟨front, ⟨opening, body, closing⟩, after, by simp [Span.source], hfront,
    ⟨condition, hopening⟩, hbody, hclosing⟩

theorem Span.IsBlock.holdsBlock {s : Span} (h : s.IsBlock) (front rest : List Char) :
    HoldsBlock (front ++ (s.source ++ rest)) := by
  obtain ⟨condition, hopening⟩ := h.opening
  exact ⟨front, condition, s.opening, s.body ++ (s.closing ++ rest), by simp [source], hopening,
    s.closing, h.closing, s.body, rest, by simp⟩

/-- Every text has a layout.  Recursion on what follows its first block. -/
theorem exists_layout (cs : List Char) : ∃ l : Layout, l.source = cs ∧ l.IsExact := by
  by_cases h : HoldsBlock cs
  · obtain ⟨front, span, rest, heq, hfront, hspan⟩ := exists_first_block h
    have hshorter : rest.length < cs.length := by
      obtain ⟨_, hopening⟩ := hspan.opening
      have hpos : 0 < span.opening.length := List.length_pos_iff.mpr hopening.ne_nil
      rw [heq, Span.source]
      simp only [List.length_append]
      omega
    obtain ⟨l, hl, hexact⟩ := exists_layout rest
    exact ⟨.block front span l, by rw [Layout.source, hl, heq], hfront, hspan, hexact⟩
  · exact ⟨.last cs, rfl, h⟩
termination_by cs.length

/-- The tokens of a block with what stands around it. -/
theorem Span.IsBlock.lex_eq {s : Span} (h : s.IsBlock) :
    ∃ condition, ∀ front rest, Token.lex (front ++ (s.source ++ rest)) =
      Token.lex front ++ .tag (.opening condition) s.opening ::
        (Token.lex s.body ++ .tag .closing s.closing :: Token.lex rest) := by
  obtain ⟨condition, hopening⟩ := h.opening
  refine ⟨condition, fun front rest => ?_⟩
  rw [source, List.append_assoc, List.append_assoc, Token.lex_append_isTag hopening,
    Token.lex_append_isTag h.closing]

/-- A text has one layout only. -/
theorem layout_unique {l l' : Layout} (h : l.IsExact) (h' : l'.IsExact) (hsource : l.source = l'.source) :
    l = l' := by
  induction l generalizing l' with
  | last text =>
      cases l' with
      | last text' => rw [show text = text' from hsource]
      | block front' span' rest' =>
          have hblock : HoldsBlock text := by
            rw [show text = front' ++ (span'.source ++ rest'.source) from hsource]
            exact h'.2.1.holdsBlock front' rest'.source
          exact absurd hblock h
  | block front span rest ih =>
      cases l' with
      | last text' =>
          have hblock : HoldsBlock text' := by
            rw [show text' = front ++ (span.source ++ rest.source) from hsource.symm]
            exact h.2.1.holdsBlock front rest.source
          exact absurd hblock h'
      | block front' span' rest' =>
          obtain ⟨hfront, hspan, hrest⟩ := h
          obtain ⟨hfront', hspan', hrest'⟩ := h'
          obtain ⟨condition, hlex⟩ := hspan.lex_eq
          obtain ⟨condition', hlex'⟩ := hspan'.lex_eq
          have htokens := congrArg Token.lex hsource
          rw [Layout.source, Layout.source, hlex, hlex'] at htokens
          obtain ⟨hf, ho, htokens⟩ := append_cons_inj_of_first (forall_isOpening_eq_false hfront) rfl
            (forall_isOpening_eq_false hfront') rfl htokens
          obtain ⟨hb, hc, hr⟩ := append_cons_inj_of_first (forall_isClosing_eq_false hspan.body) rfl
            (forall_isClosing_eq_false hspan'.body) rfl htokens
          obtain ⟨opening, body, closing⟩ := span
          obtain ⟨opening', body', closing'⟩ := span'
          obtain rfl := Token.lex_inj_iff.mp hf
          obtain rfl := (Token.tag.inj ho).2
          obtain rfl := Token.lex_inj_iff.mp hb
          obtain rfl := (Token.tag.inj hc).2
          rw [ih hrest hrest' (Token.lex_inj_iff.mp hr)]

/-! ## Reading follows the layout -/

/-- Tokens without an `{% if %}` are text. -/
theorem outside_append {tokens : List Token} (h : ∀ t ∈ tokens, t.isOpening = false) (rest : List Token) :
    outside (tokens ++ rest) = (Token.sources tokens ++ (outside rest).1, (outside rest).2) := by
  induction tokens with
  | nil => simp
  | cons token tokens ih =>
      obtain ⟨htoken, htokens⟩ := List.forall_mem_cons.mp h
      cases token with
      | text chars => simp [outside, ih htokens]
      | tag d raw =>
          cases d with
          | opening condition => contradiction
          | _ => simp [outside, ih htokens]

/-- A block that is never closed is none. -/
theorem inside_eq_none {tokens : List Token} (h : ∀ t ∈ tokens, t.isClosing = false) (hasElse : Bool) :
    inside hasElse tokens = none := by
  induction tokens generalizing hasElse with
  | nil => rfl
  | cons token tokens ih =>
      obtain ⟨htoken, htokens⟩ := List.forall_mem_cons.mp h
      cases token with
      | text chars => simp [inside, ih htokens]
      | tag d raw =>
          cases d with
          | closing => contradiction
          | otherwise => cases hasElse <;> simp [inside, ih htokens]
          | _ => simp [inside, ih htokens]

/-- The first `{% endif %}` closes a block: what it holds is made of the tokens up to there, and what
follows is read from outside. -/
theorem exists_inside_eq {tokens : List Token} (h : ∀ t ∈ tokens, t.isClosing = false) (hasElse : Bool) :
    ∃ body branches, ∀ raw rest,
      inside hasElse (tokens ++ .tag .closing raw :: rest) = some (body, branches, outside rest) := by
  induction tokens generalizing hasElse with
  | nil => exact ⟨[], [], fun raw rest => by simp [inside]⟩
  | cons token tokens ih =>
      obtain ⟨htoken, htokens⟩ := List.forall_mem_cons.mp h
      obtain ⟨body, branches, hinside⟩ := ih htokens hasElse
      cases token with
      | text chars => exact ⟨chars ++ body, branches, fun raw rest => by simp [inside, hinside]⟩
      | tag d raw' =>
          cases d with
          | opening condition =>
              exact ⟨raw' ++ body, branches, fun raw rest => by simp [inside, hinside]⟩
          | alternative condition =>
              exact ⟨[], branch (some condition) body :: branches,
                fun raw rest => by simp [inside, hinside]⟩
          | otherwise =>
              obtain ⟨body', branches', hinside'⟩ := ih htokens true
              cases hasElse with
              | false =>
                  exact ⟨[], branch none body' :: branches', fun raw rest => by simp [inside, hinside']⟩
              | true => exact ⟨raw' ++ body', branches', fun raw rest => by simp [inside, hinside']⟩
          | closing => contradiction

/-- A block is read as one node, alone or with other text around it. -/
theorem Span.IsBlock.exists_parse_eq {s : Span} (h : s.IsBlock) :
    ∃ branches, parse (String.ofList s.source) = [.block branches] ∧
      ∀ front rest, ¬ HoldsOpening front →
        ofTokens (Token.lex (front ++ (s.source ++ rest))) =
          segments front ++ .block branches :: ofTokens (Token.lex rest) := by
  obtain ⟨condition, hlex⟩ := h.lex_eq
  obtain ⟨body, branches, hinside⟩ := exists_inside_eq (forall_isClosing_eq_false h.body) false
  have hread : ∀ front rest, ¬ HoldsOpening front →
      ofTokens (Token.lex (front ++ (s.source ++ rest))) =
        segments front ++
          .block (branch (some condition) body :: branches) :: ofTokens (Token.lex rest) := by
    intro front rest hfront
    rw [hlex, ofTokens, outside_append (forall_isOpening_eq_false hfront)]
    simp [outside, hinside, ofTokens]
  refine ⟨_, ?_, hread⟩
  have halone := hread [] [] (by decide)
  rw [List.nil_append, List.append_nil] at halone
  rw [parse, String.toList_ofList, halone]
  rfl

/-- Without a block a text is read as its segments. -/
theorem ofTokens_lex_of_not_holdsBlock {cs : List Char} (h : ¬ HoldsBlock cs) :
    ofTokens (Token.lex cs) = segments cs := by
  by_cases hopening : HoldsOpening cs
  · obtain ⟨front, condition, opening, rest, rfl, hopening, hfront⟩ := exists_first_opening hopening
    have hclosing : ¬ HoldsClosing rest := fun hclosing =>
      h ⟨front, condition, opening, rest, rfl, hopening, hclosing⟩
    rw [Token.lex_append_isTag hopening, ofTokens, outside_append (forall_isOpening_eq_false hfront)]
    simp [outside, inside_eq_none (forall_isClosing_eq_false hclosing)]
  · have hnone := outside_append (forall_isOpening_eq_false hopening) []
    rw [List.append_nil] at hnone
    simp [ofTokens, hnone, outside]

/-! ## Nothing is lost -/

theorem weave_segments (cs : List Char) (nodes : Template) (texts : List (List Char)) :
    weave (segments cs ++ nodes) texts = cs ++ weave nodes texts := by
  have hweave : ∀ ss : List Segment,
      weave (ss.map .segment ++ nodes) texts = (Segment.sources ss).toList ++ weave nodes texts := by
    intro ss
    induction ss with
    | nil => simp
    | cons s ss ih => simp [weave, ih]
  rw [segments, hweave, Segment.toList_sources_readChars]

/-- What is read of a text with an exact layout: the nodes of its parts, one for each block. -/
theorem Layout.IsExact.ofTokens_eq {l : Layout} (h : l.IsExact) :
    ofTokens (Token.lex l.source) = l.nodes ∧
      (∀ span ∈ l.spans, ∃ branches, parse (String.ofList span.source) = [.block branches]) ∧
      weave l.nodes (l.spans.map Span.source) = l.source := by
  induction l with
  | last text =>
      have hweave := weave_segments text [] []
      simp only [List.append_nil, weave] at hweave
      exact ⟨ofTokens_lex_of_not_holdsBlock h, by simp [spans], hweave⟩
  | block front span rest ih =>
      obtain ⟨hfront, hspan, hrest⟩ := h
      obtain ⟨hread, hspans, hweave⟩ := ih hrest
      obtain ⟨branches, hparse, hblock⟩ := hspan.exists_parse_eq
      refine ⟨?_, ?_, ?_⟩
      · rw [source, hblock front rest.source hfront, hread, nodes, hparse]
        rfl
      · exact List.forall_mem_cons.mpr ⟨⟨branches, hparse⟩, hspans⟩
      · simp [nodes, spans, source, hparse, weave_segments, weave, hweave]

/-! ## Templates -/

/-- A text without a block stays as it is when its blocks are resolved. -/
theorem resolveBlocks_of_not_holdsBlock {text : String} (h : ¬ HoldsBlock text.toList) (c : Context)
    (logger : String) : c.resolveBlocks logger text = (text, []) := by
  have hparse : parse text = (Segment.read text).map .segment := ofTokens_lex_of_not_holdsBlock h
  have hnode : c.resolveNode logger ∘ Node.segment = fun s => (s.source, []) := rfl
  have hsources : String.join ((Segment.read text).map Segment.source) = text := Segment.sources_read text
  simp only [Context.resolveBlocks, hparse, List.map_map, hnode]
  exact Prod.ext hsources (by simp)

/-- **Reading follows the layout**: a text has exactly one layout, in which each block starts at the first
`{% if %}` after the block in front of it and ends with the first `{% endif %}` after that.  It is read as
the segments of what stands between the blocks and one node for each block, the one that the block is read
as alone; and the sources of these segments, with the blocks between them, are the text again.  So a text
without a block is left as it is, whatever other tags it holds. -/
theorem exists_layout_parse_eq_nodes (text : String) :
    ∃ l : Layout, l.source = text.toList ∧ l.IsExact ∧
      (∀ l' : Layout, l'.source = text.toList → l'.IsExact → l' = l) ∧
      parse text = l.nodes ∧
      (∀ span ∈ l.spans, ∃ branches, parse (String.ofList span.source) = [.block branches]) ∧
      weave (parse text) (l.spans.map Span.source) = text.toList ∧
      (¬ HoldsBlock text.toList →
        ∀ (c : Context) (logger : String), c.resolveBlocks logger text = (text, [])) := by
  obtain ⟨l, hsource, hexact⟩ := exists_layout text.toList
  obtain ⟨hread, hspans, hweave⟩ := hexact.ofTokens_eq
  have hparse : parse text = l.nodes := by rw [parse, ← hsource, hread]
  refine ⟨l, hsource, hexact, fun l' hsource' hexact' => ?_, hparse, hspans, ?_,
    resolveBlocks_of_not_holdsBlock⟩
  · exact layout_unique hexact' hexact (hsource'.trans hsource.symm)
  · rw [hparse, hweave, hsource]

/-- Stray tags stand in front of a block, which holds an `{% if %}` of its own and half a tag, and an
`{% if %}` that is never closed stands behind it. -/
theorem exists_layout_parse_eq_nodes_stray_tags :
    let front := "{% endif %}{% else %}"
    let span : Span := ⟨"{% if x %}".toList, "b{% if y %}{%}".toList, "{% endif %}".toList⟩
    let rest := "c{% if z %}"
    let l : Layout := .block front.toList span (.last rest.toList)
    l.IsExact ∧
      parse (front ++ String.ofList span.source ++ rest) =
        [.segment (.literal front), .block [⟨some "x", [.literal "b{% if y %}{%}"]⟩],
          .segment (.literal rest)] ∧
      ¬ HoldsBlock rest.toList ∧ ∀ c : Context, c.resolveBlocks "" rest = (rest, []) := by
  intro front span rest l
  have hfront : ¬ HoldsOpening front.toList := by decide +kernel
  have hspan : span.IsBlock :=
    ⟨⟨"x", " if x ".toList, by decide, by decide⟩, by decide +kernel, " endif ".toList, by decide,
      by decide⟩
  have hrest : ¬ HoldsBlock rest.toList := fun h =>
    absurd h.holdsClosing (by decide +kernel)
  have hl : l.IsExact := ⟨hfront, hspan, hrest⟩
  obtain ⟨l', _, _, hunique, hparse, _⟩ :=
    exists_layout_parse_eq_nodes (front ++ String.ofList span.source ++ rest)
  obtain rfl : l = l' := hunique l (by simp [l, Layout.source]) hl
  obtain ⟨_, _, _, _, _, _, _, hresolve⟩ := exists_layout_parse_eq_nodes rest
  exact ⟨hl, by rw [hparse]; decide +kernel, hrest, fun c => hresolve hrest c ""⟩

end Template

end ColumnLabel
