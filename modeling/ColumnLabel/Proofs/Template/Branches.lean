import ColumnLabel.Proofs.Template.Layout
import ColumnLabel.Proofs.Template.Tokens

/-!
# ColumnLabel.Proofs.Template.Branches

How the text of a block falls into its branches.

A branch starts at the tag that opens the block, at every `{% elif %}`, and at the first `{% else %}`; it goes up to the
tag of the next one or to the end of the block.  `Span.IsCutInto` says so of the text, with nothing said of tokens or of
how a template is read.  Every block is cut in exactly one way, and its branches are read off these parts in order
(`Span.IsBlock.exists_arms`).
-/

namespace ColumnLabel

open Text

/-- Does a tag inside a block start a branch?  An `{% elif %}` does, and an `{% else %}` if the block had none yet. -/
def Directive.startsBranch (hasElse : Bool) : Directive → Bool
  | .alternative _ => true
  | .otherwise => !hasElse
  | _ => false

/-- Does a token inside a block start a branch? -/
def Token.startsBranch (hasElse : Bool) : Token → Bool
  | .text _ => false
  | .tag d _ => d.startsBranch hasElse

namespace Template

/-! ## The parts of a block -/

/-- A branch in the text of a block: its tag with what it says, and the text behind it. -/
structure Arm where
  directive : Directive
  tag : List Char
  body : List Char
  deriving DecidableEq, Repr

namespace Arm

/-- The text of a branch. -/
def source (a : Arm) : List Char := a.tag ++ a.body

/-- The text of branches that stand one behind the other. -/
def sources (arms : List Arm) : List Char := arms.flatMap source

/-- What a branch is read as. -/
def branch (a : Arm) : Branch := Template.branch a.directive.condition? a.body

end Arm

/-- Does a tag that would start a branch stand in the text? -/
def HoldsBranch (hasElse : Bool) (cs : List Char) : Prop :=
  ∃ (d : Directive) (raw : List Char), d.startsBranch hasElse = true ∧ d.IsTag raw ∧ raw <:+: cs

/-- A body and the branches behind it: each of them starts at the first tag that starts one.  `hasElse` says that an
`{% else %}` came already. -/
def AreLater (hasElse : Bool) (body : List Char) : List Arm → Prop
  | [] => ¬ HoldsBranch hasElse body
  | arm :: arms => ¬ HoldsBranch hasElse body ∧
      arm.directive.startsBranch hasElse = true ∧ arm.directive.IsTag arm.tag ∧
      AreLater (hasElse || arm.directive = .otherwise) arm.body arms

/-- The text of a block is cut into its branches. -/
def Span.IsCutInto (s : Span) (arms : List Arm) : Prop :=
  ∃ condition body later, arms = ⟨.opening condition, s.opening, body⟩ :: later ∧
    (Directive.opening condition).IsTag s.opening ∧ s.body = body ++ Arm.sources later ∧
    AreLater false body later

theorem holdsBranch_iff {hasElse : Bool} {cs : List Char} :
    HoldsBranch hasElse cs ↔ ∃ t ∈ Token.lex cs, t.startsBranch hasElse = true := by
  constructor
  · intro h
    obtain ⟨d, raw, hstarts, htag⟩ := h
    exact ⟨.tag d raw, Token.mem_lex_iff.mpr htag, hstarts⟩
  · intro h
    obtain ⟨t, ht, hstarts⟩ := h
    cases t with
    | text chars => contradiction
    | tag d raw => exact ⟨d, raw, hstarts, Token.mem_lex_iff.mp ht⟩

theorem forall_startsBranch_eq_false {hasElse : Bool} {cs : List Char} (h : ¬ HoldsBranch hasElse cs) :
    ∀ t ∈ Token.lex cs, t.startsBranch hasElse = false := fun t ht =>
  Bool.eq_false_iff.mpr fun hstarts => h (holdsBranch_iff.mpr ⟨t, ht, hstarts⟩)

/-- A text with a tag that starts a branch has a first one. -/
theorem exists_first_branch {hasElse : Bool} {cs : List Char} (h : HoldsBranch hasElse cs) :
    ∃ front, ∃ d : Directive, ∃ raw rest, cs = front ++ (raw ++ rest) ∧ d.startsBranch hasElse = true ∧ d.IsTag raw ∧
      ¬ HoldsBranch hasElse front := by
  obtain ⟨d, raw, hstarts, htag, hin⟩ := h
  obtain ⟨front, first, rest, heq, ⟨d', hstarts', htag'⟩, hnone⟩ :=
    exists_first (P := fun raw => ∃ d : Directive, d.startsBranch hasElse = true ∧ d.IsTag raw)
      (fun _ ⟨_, _, htag⟩ => htag.ne_nil) ⟨raw, ⟨d, hstarts, htag⟩, hin⟩
  exact ⟨front, d', first, rest, heq, hstarts', htag',
    fun ⟨d, raw, hstarts, htag, hin⟩ => hnone raw ⟨d, hstarts, htag⟩ hin⟩

/-! ## Every block is cut in one way -/

/-- Every text is a body with branches behind it.  Recursion on what follows the first tag that starts one. -/
theorem exists_areLater (hasElse : Bool) (cs : List Char) :
    ∃ body arms, cs = body ++ Arm.sources arms ∧ AreLater hasElse body arms := by
  by_cases h : HoldsBranch hasElse cs
  · obtain ⟨front, d, raw, rest, rfl, hstarts, htag, hfront⟩ := exists_first_branch h
    have hshorter : rest.length < (front ++ (raw ++ rest)).length := by
      have hpos : 0 < raw.length := List.length_pos_iff.mpr htag.ne_nil
      simp only [List.length_append]
      omega
    obtain ⟨body, arms, hrest, hlater⟩ := exists_areLater (hasElse || d = .otherwise) rest
    refine ⟨front, ⟨d, raw, body⟩ :: arms, ?_, hfront, hstarts, htag, hlater⟩
    rw [hrest]
    simp [Arm.sources, Arm.source]
  · exact ⟨cs, [], by simp [Arm.sources], h⟩
termination_by cs.length

/-- The tokens of a body with branches behind it. -/
theorem lex_sources_cons {d : Directive} {raw : List Char} (h : d.IsTag raw) (body text : List Char)
    (arms : List Arm) : Token.lex (body ++ Arm.sources (⟨d, raw, text⟩ :: arms)) =
      Token.lex body ++ .tag d raw :: Token.lex (text ++ Arm.sources arms) := by
  rw [← Token.lex_append_isTag h]
  simp [Arm.sources, Arm.source]

theorem holdsBranch_of_isTag {hasElse : Bool} {d : Directive} {raw : List Char}
    (hstarts : d.startsBranch hasElse = true) (h : d.IsTag raw) (body text : List Char) (arms : List Arm) :
    HoldsBranch hasElse (body ++ Arm.sources (⟨d, raw, text⟩ :: arms)) :=
  ⟨d, raw, hstarts, h, body, text ++ Arm.sources arms, by simp [Arm.sources, Arm.source]⟩

/-- A text is a body with branches behind it in one way only. -/
theorem areLater_unique {hasElse : Bool} {body body' : List Char} {arms arms' : List Arm}
    (h : AreLater hasElse body arms) (h' : AreLater hasElse body' arms')
    (heq : body ++ Arm.sources arms = body' ++ Arm.sources arms') : body = body' ∧ arms = arms' := by
  induction arms generalizing hasElse body body' arms' with
  | nil =>
      cases arms' with
      | nil => exact ⟨by simpa [Arm.sources] using heq, rfl⟩
      | cons arm' arms' =>
          obtain ⟨_, hstarts', htag', _⟩ := h'
          have hholds := holdsBranch_of_isTag hstarts' htag' body' arm'.body arms'
          rw [← heq] at hholds
          exact absurd (by simpa [Arm.sources] using hholds) h
  | cons arm arms ih =>
      obtain ⟨hbody, hstarts, htag, hlater⟩ := h
      cases arms' with
      | nil =>
          have hholds := holdsBranch_of_isTag hstarts htag body arm.body arms
          rw [heq] at hholds
          exact absurd (by simpa [Arm.sources] using hholds) h'
      | cons arm' arms' =>
          obtain ⟨hbody', hstarts', htag', hlater'⟩ := h'
          obtain ⟨d, raw, text⟩ := arm
          obtain ⟨d', raw', text'⟩ := arm'
          have htokens := congrArg Token.lex heq
          rw [lex_sources_cons htag, lex_sources_cons htag'] at htokens
          have hfirst : (Token.tag d raw).startsBranch hasElse = true := hstarts
          have hfirst' : (Token.tag d' raw').startsBranch hasElse = true := hstarts'
          obtain ⟨hfront, htoken, hrest⟩ := append_cons_inj_of_first (forall_startsBranch_eq_false hbody) hfirst
            (forall_startsBranch_eq_false hbody') hfirst' htokens
          obtain rfl := Token.lex_inj_iff.mp hfront
          obtain ⟨rfl, rfl⟩ := Token.tag.inj htoken
          obtain ⟨rfl, rfl⟩ := ih hlater hlater' (Token.lex_inj_iff.mp hrest)
          exact ⟨rfl, rfl⟩

/-- At most one branch is an `else`: behind one, no other `{% else %}` starts a branch. -/
theorem countP_isElse_le {hasElse : Bool} {body : List Char} {arms : List Arm} (h : AreLater hasElse body arms) :
    (arms.map Arm.branch).countP Branch.isElse ≤ if hasElse then 0 else 1 := by
  induction arms generalizing hasElse body with
  | nil => simp
  | cons arm arms ih =>
      obtain ⟨_, hstarts, _, hlater⟩ := h
      have hle := ih hlater
      obtain ⟨d, raw, text⟩ := arm
      rw [List.map_cons, List.countP_cons]
      cases d with
      | alternative condition => simpa [Arm.branch, branch, Directive.condition?, Branch.isElse] using hle
      | otherwise =>
          obtain rfl : hasElse = false := by simpa [Directive.startsBranch] using hstarts
          rw [Bool.false_or, decide_eq_true rfl, if_pos rfl, Nat.le_zero] at hle
          rw [hle, Nat.zero_add]
          exact Nat.le_refl 1
      | _ => contradiction

/-! ## Reading follows the cut -/

/-- Tokens that neither start a branch nor close the block belong to the body that they stand in. -/
theorem inside_append {hasElse : Bool} {tokens : List Token} (hclosing : ∀ t ∈ tokens, t.isClosing = false)
    (hstarts : ∀ t ∈ tokens, t.startsBranch hasElse = false) (rest : List Token) :
    inside hasElse (tokens ++ rest) =
      (inside hasElse rest).map fun found => (Token.sources tokens ++ found.1, found.2) := by
  induction tokens with
  | nil => cases hin : inside hasElse rest <;> simp [hin]
  | cons token tokens ih =>
      obtain ⟨hclosing, hclosing'⟩ := List.forall_mem_cons.mp hclosing
      obtain ⟨hstarts, hstarts'⟩ := List.forall_mem_cons.mp hstarts
      have hrest := ih hclosing' hstarts'
      cases token with
      | text chars => simp [inside, hrest, Function.comp_def]
      | tag d raw =>
          cases d with
          | opening condition => simp [inside, hrest, Function.comp_def]
          | alternative condition => contradiction
          | otherwise =>
              obtain rfl : hasElse = true := by simpa [Token.startsBranch, Directive.startsBranch] using hstarts
              simp [inside, hrest, Function.comp_def]
          | closing => contradiction

/-- A tag that starts a branch ends the body in front of it. -/
theorem inside_startsBranch {hasElse : Bool} {d : Directive} (h : d.startsBranch hasElse = true) (raw : List Char)
    (tokens : List Token) :
    inside hasElse (.tag d raw :: tokens) = (inside (hasElse || d = .otherwise) tokens).map fun found =>
      ([], branch d.condition? found.1 :: found.2.1, found.2.2) := by
  cases d with
  | alternative condition => simp [inside, Directive.condition?]
  | otherwise =>
      obtain rfl : hasElse = false := by simpa [Directive.startsBranch] using h
      simp [inside, Directive.condition?]
  | _ => contradiction

/-- From inside a block its branches are read off the parts that the text is cut into, up to the first `{% endif %}`. -/
theorem inside_sources {hasElse : Bool} {body : List Char} {arms : List Arm} (h : AreLater hasElse body arms)
    (hopen : ¬ HoldsClosing (body ++ Arm.sources arms)) (raw : List Char) (rest : List Token) :
    inside hasElse (Token.lex (body ++ Arm.sources arms) ++ .tag .closing raw :: rest) =
      some (body, arms.map Arm.branch, outside rest) := by
  induction arms generalizing hasElse body with
  | nil =>
      simp only [Arm.sources, List.flatMap_nil, List.append_nil] at hopen ⊢
      rw [inside_append (forall_isClosing_eq_false hopen) (forall_startsBranch_eq_false h)]
      simp [inside]
  | cons arm arms ih =>
      obtain ⟨hbody, hstarts, htag, hlater⟩ := h
      have hfront : ¬ HoldsClosing body := fun h => hopen (h.mono (List.prefix_append _ _).isInfix)
      have hback : ¬ HoldsClosing (arm.body ++ Arm.sources arms) := fun h =>
        hopen (h.mono ⟨body ++ arm.tag, [], by simp [Arm.sources, Arm.source]⟩)
      rw [lex_sources_cons htag, List.append_assoc, List.cons_append,
        inside_append (forall_isClosing_eq_false hfront) (forall_startsBranch_eq_false hbody),
        inside_startsBranch hstarts, ih hlater hback]
      simp [Arm.branch]

/-- A block is one node, with the branches that are read off the parts of its text, in order. -/
theorem Span.IsBlock.exists_arms {s : Span} (h : s.IsBlock) : ∃ arms, s.IsCutInto arms ∧
    (∀ arms', s.IsCutInto arms' → arms' = arms) ∧
    parse (String.ofList s.source) = [.block (arms.map Arm.branch)] := by
  obtain ⟨condition, hopening⟩ := h.opening
  obtain ⟨body, later, hcut, hlater⟩ := exists_areLater false s.body
  refine ⟨⟨.opening condition, s.opening, body⟩ :: later, ⟨condition, body, later, rfl, hopening, hcut, hlater⟩,
    fun arms' h' => ?_, ?_⟩
  · obtain ⟨condition', body', later', rfl, hopening', hcut', hlater'⟩ := h'
    obtain ⟨rfl, rfl⟩ := areLater_unique hlater hlater' (hcut ▸ hcut')
    rw [hopening.unique hopening']
  · have hinside := inside_sources hlater (hcut ▸ h.body) s.closing []
    rw [← hcut] at hinside
    have htokens : Token.lex s.source = Token.lex [] ++ .tag (.opening condition) s.opening ::
        (Token.lex s.body ++ .tag .closing s.closing :: Token.lex []) := by
      rw [← Token.lex_append_isTag h.closing, ← Token.lex_append_isTag hopening, source]
      simp
    have hnil : Token.lex [] = [] := rfl
    rw [parse, String.toList_ofList, ofTokens, htokens, hnil, List.nil_append, outside, hinside]
    rfl

end Template

end ColumnLabel
