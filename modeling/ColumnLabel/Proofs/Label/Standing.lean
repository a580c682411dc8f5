import ColumnLabel.Proofs.Template.Branches
import Mathlib.Data.List.Forall2

/-!
# ColumnLabel.Proofs.Label.Standing

What stands for the blocks of a template.

Of the branches of a block the first one stands that is an `else` or whose condition holds (`choose_eq_find?`), and what
is behind an `else` is not looked at (`choose_append_isElse`).  Together with the way a block is cut into its branches
this says what becomes of every block of a text (`exists_layout_isReadAs`).
-/

namespace ColumnLabel

open Text

/-! ## The blocks of a template -/

/-- The branches of a node, if it is a block. -/
def Node.branches? : Node → Option (List Branch)
  | .segment _ => none
  | .block branches => some branches

namespace Template

/-- The branches of the blocks of a template, in order. -/
def blocks (t : Template) : List (List Branch) := t.filterMap Node.branches?

theorem blocks_append (t u : Template) : blocks (t ++ u) = blocks t ++ blocks u := List.filterMap_append

theorem blocks_segments (cs : List Char) : blocks (segments cs) = [] := by
  rw [blocks, List.filterMap_eq_nil_iff]
  intro n hn
  obtain ⟨s, _, rfl⟩ := List.mem_map.mp hn
  rfl

/-- A branch is the one that a part of a block is read as: it has the condition of the tag, if this has one, and its
body is the text behind the tag without the blanks around it. -/
structure Arm.IsReadAs (a : Arm) (b : Branch) : Prop where
  condition : b.condition = a.directive.condition?
  rawBody : b.rawBody = String.ofList (trim a.body)

/-- The branches of a block are the ones that the parts of its text are read as, in order. -/
def Span.IsReadAs (s : Span) (branches : List Branch) : Prop :=
  ∃ arms, s.IsCutInto arms ∧ (∀ arms', s.IsCutInto arms' → arms' = arms) ∧ List.Forall₂ Arm.IsReadAs arms branches

theorem Arm.isReadAs_branch (a : Arm) : a.IsReadAs a.branch where
  condition := rfl
  rawBody := by
    rw [← String.toList_inj, Branch.rawBody, branch, Template.branch, Segment.toList_sources_readChars,
      String.toList_ofList]

/-- The first branch has a condition, and at most one branch is an `else`. -/
theorem Span.IsCutInto.branches_eq {s : Span} {arms : List Arm} (h : s.IsCutInto arms) :
    (∃ first later condition, arms.map Arm.branch = first :: later ∧ first.condition = some condition) ∧
      (arms.map Arm.branch).countP Branch.isElse ≤ 1 := by
  obtain ⟨condition, body, later, rfl, _, _, hlater⟩ := h
  refine ⟨⟨_, _, condition, List.map_cons, rfl⟩, ?_⟩
  rw [List.map_cons, List.countP_cons]
  exact countP_isElse_le hlater

/-- Each block of a text with an exact layout is read as its branches. -/
theorem Layout.IsExact.forall₂_blocks {l : Layout} (h : l.IsExact) :
    List.Forall₂ Span.IsReadAs l.spans (blocks l.nodes) ∧
      ∀ branches ∈ blocks l.nodes,
        (∃ first later condition, branches = first :: later ∧ first.condition = some condition) ∧
          branches.countP Branch.isElse ≤ 1 := by
  induction l with
  | last text =>
      rw [nodes, blocks_segments]
      exact ⟨.nil, by simp⟩
  | block front span rest ih =>
      obtain ⟨_, hspan, hrest⟩ := h
      obtain ⟨hread, hforall⟩ := ih hrest
      obtain ⟨arms, hcut, hunique, hparse⟩ := hspan.exists_arms
      have hblocks : blocks (block front span rest).nodes = arms.map Arm.branch :: blocks rest.nodes := by
        rw [nodes, blocks_append, blocks_segments, hparse]
        rfl
      have harms : List.Forall₂ Arm.IsReadAs arms (arms.map Arm.branch) := by
        rw [List.forall₂_map_right_iff, List.forall₂_same]
        exact fun a _ => a.isReadAs_branch
      rw [hblocks]
      exact ⟨.cons ⟨arms, hcut, hunique, harms⟩ hread, List.forall_mem_cons.mpr ⟨hcut.branches_eq, hforall⟩⟩

end Template

/-! ## The branch that stands -/

namespace Context

variable {c : Context} {logger : String}

/-- Does a branch stand, if none in front of it does? -/
def stands (c : Context) (logger : String) (b : Branch) : Bool :=
  b.isElse || b.condition.any fun condition => (c.satisfies logger condition).1

/-- The body of the first branch that stands, or nothing. -/
def standingBody (c : Context) (logger : String) (branches : List Branch) : String :=
  ((branches.find? (c.stands logger)).map Branch.rawBody).getD ""

theorem choose_eq_find? (branches : List Branch) :
    (c.choose logger branches).1 = branches.find? (c.stands logger) := by
  induction branches with
  | nil => rfl
  | cons branch branches ih =>
      rw [List.find?_cons, choose]
      cases hcondition : branch.condition with
      | none => simp [stands, Branch.isElse, hcondition]
      | some condition =>
          have hstands : c.stands logger branch = (c.satisfies logger condition).1 := by
            simp [stands, Branch.isElse, hcondition]
          rw [hstands]
          cases hholds : (c.satisfies logger condition).1 <;> simp [hholds, ih]

/-- Behind an `else` no branch is looked at: which one stands and what is reported on the way is the same as if the
block ended there. -/
theorem choose_append_isElse {last : Branch} (h : last.isElse = true) (before after : List Branch) :
    c.choose logger (before ++ last :: after) = c.choose logger (before ++ [last]) := by
  induction before with
  | nil =>
      have hcondition : last.condition = none := by simpa [Branch.isElse] using h
      simp [choose, hcondition]
  | cons branch before ih => simp only [List.cons_append, choose, ih]

/-- In the place of each block its standing body comes. -/
theorem toList_resolveBlocks (text : String) : (c.resolveBlocks logger text).1.toList =
    Template.weave (Template.parse text)
      ((Template.blocks (Template.parse text)).map fun branches => (c.standingBody logger branches).toList) := by
  simp only [resolveBlocks]
  induction Template.parse text with
  | nil => rfl
  | cons node nodes ih =>
      rw [List.map_cons, List.map_cons, String.join_cons, String.toList_append, ih]
      cases node with
      | segment s => rfl
      | block branches =>
          simp only [resolveNode, choose_eq_find?]
          rfl

end Context

/-! ## Blocks and what stands for them -/

namespace Template

/-- **What becomes of the blocks of a text**: the text has one layout, and each of its spans is read as one block, whose
branches are those that the text of the span is cut into: one for the `{% if %}` that opens it, one for every
`{% elif %}` and one for the first `{% else %}`, each with the trimmed text up to the next of these tags or to the
`{% endif %}` as its body.  So the first branch has a condition and at most one is an `else`.

In any context the place of a block is taken by the body of the first branch that is an `else` or whose condition
holds, or by nothing.  What stands behind an `else` makes no difference, neither to that body nor to what is reported. -/
theorem exists_layout_isReadAs (text : String) :
    (∃ l : Layout, l.source = text.toList ∧ l.IsExact ∧
      (∀ l' : Layout, l'.source = text.toList → l'.IsExact → l' = l) ∧
      weave (parse text) (l.spans.map Span.source) = text.toList ∧
      List.Forall₂ Span.IsReadAs l.spans (blocks (parse text))) ∧
      (∀ branches ∈ blocks (parse text),
        (∃ first later condition, branches = first :: later ∧ first.condition = some condition) ∧
          branches.countP Branch.isElse ≤ 1) ∧
      ∀ (c : Context) (logger : String),
        (c.resolveBlocks logger text).1.toList = weave (parse text)
          ((blocks (parse text)).map fun branches => (c.standingBody logger branches).toList) ∧
        ∀ (before : List Branch) (last : Branch) (after : List Branch), last.isElse = true →
          c.choose logger (before ++ last :: after) = c.choose logger (before ++ [last]) := by
  obtain ⟨l, hsource, hexact⟩ := exists_layout text.toList
  obtain ⟨hread, _, hweave⟩ := hexact.ofTokens_eq
  obtain ⟨hspans, hbranches⟩ := hexact.forall₂_blocks
  have hparse : parse text = l.nodes := by rw [parse, ← hsource, hread]
  refine ⟨⟨l, hsource, hexact, fun l' hsource' hexact' => ?_, ?_, hparse ▸ hspans⟩, hparse ▸ hbranches,
    fun c logger => ⟨c.toList_resolveBlocks text, fun before last after h => ?_⟩⟩
  · exact layout_unique hexact' hexact (hsource'.trans hsource.symm)
  · rw [hparse, hweave, hsource]
  · exact Context.choose_append_isElse h before after

/-- A block with an `{% if %}` in a body, a second `{% else %}`, and an `{% elif %}` that is never reached. -/
theorem exists_layout_isReadAs_second_else :
    let text := "a{% if x %} b{% if y %} {% else %}c{% else %}d{% elif z %}e{% endif %}f"
    let opening : Branch := ⟨some "x", [.literal "b{% if y %}"]⟩
    let otherwise : Branch := ⟨none, [.literal "c{% else %}d"]⟩
    let unreached : Branch := ⟨some "z", [.literal "e"]⟩
    blocks (parse text) = [[opening, otherwise, unreached]] ∧
      ∀ c : Context, c.choose "" [opening, otherwise, unreached] = c.choose "" [opening, otherwise] := by
  intro text opening otherwise unreached
  exact ⟨by decide +kernel,
    fun c => ((exists_layout_isReadAs text).2.2 c "").2 [opening] otherwise [unreached] rfl⟩

end Template

end ColumnLabel
