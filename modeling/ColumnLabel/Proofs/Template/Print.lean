import ColumnLabel.Proofs.Template.Tokens
import ColumnLabel.Template.Parse

/-!
# ColumnLabel.Proofs.Template.Print

Printing templates, and reading them back.

A template is printed from pieces: text as it is, and a block as the tag of each branch with the text of
its body after it, and the tag that closes the block.  The main statement is `parse_print`: reading gives
one block for each printed block, with its conditions and bodies in order, and between the blocks the
segments of the text, where pieces of text that stand next to each other are one text.

Nothing is asked of a text or a body but that it holds no `{%`.  It may end in a `{`, hold a `%}`, or
leave a `{{` open.
-/

namespace ColumnLabel.Template

open Text

/-! ## Pieces of a template -/

/-- A block as it is written: the condition and the body of its first branch, those of its other
branches, and the body that stands if no condition holds. -/
structure Block where
  condition : String
  body : String
  alternatives : List (String × String)
  otherwise : Option String
  deriving DecidableEq, Repr

/-- A text or a block of a template that is to be printed. -/
inductive Piece where
  | text (text : String)
  | block (block : Block)
  deriving DecidableEq, Repr

namespace Block

/-- The branches after the first one, each with the directive that starts it. -/
def laterArms (b : Block) : List (Directive × String) :=
  b.alternatives.map (fun (condition, body) => (.alternative condition, body)) ++
    (b.otherwise.map fun body => (Directive.otherwise, body)).toList

/-- The branches in order, each with the directive that starts it. -/
def arms (b : Block) : List (Directive × String) := (.opening b.condition, b.body) :: b.laterArms

/-- The branches that the tree of the template has for a block. -/
def branches (b : Block) : List Branch :=
  b.arms.map fun (d, body) => { condition := d.condition?, body := Segment.read (trimmed body) }

/-- Every condition can be said by a tag, and no body holds a `{%`. -/
def IsPrintable (b : Block) : Prop :=
  ∀ arm ∈ b.arms, (∀ condition ∈ arm.1.condition?, IsCondition condition) ∧
    ¬ ['{', '%'] <:+: arm.2.toList

end Block

/-! ## Printing -/

/-- Branches one after the other, each as its tag and its body. -/
def printArms (arms : List (Directive × String)) : List Char :=
  arms.flatMap fun (d, body) => d.tag ++ body.toList

/-- The block that a piece is, if it is one. -/
def Piece.block? : Piece → Option Block
  | text _ => none
  | block b => some b

/-- The characters of a piece. -/
def Piece.print : Piece → List Char
  | text s => s.toList
  | block b => printArms b.arms ++ Directive.closing.tag

/-- The template with some pieces. -/
def print (pieces : List Piece) : String := String.ofList (pieces.flatMap Piece.print)

/-! ## What is read back -/

/-- The longest texts without a block between them, in order; `run` is the text in front. -/
def runs (run : String) : List Piece → List String
  | [] => [run]
  | .text s :: pieces => runs (run ++ s) pieces
  | .block _ :: pieces => run :: runs "" pieces

/-- The nodes of pieces: the segments of each of these texts, and the blocks between them. -/
def nodes (run : String) : List Piece → Template
  | [] => (Segment.read run).map .segment
  | .text s :: pieces => nodes (run ++ s) pieces
  | .block b :: pieces => (Segment.read run).map .segment ++ .block b.branches :: nodes "" pieces

/-- The pieces can be told apart again: no text between two blocks holds a `{%`, and every block can be
printed. -/
structure ArePrintable (pieces : List Piece) : Prop where
  runs : ∀ run ∈ runs "" pieces, ¬ ['{', '%'] <:+: run.toList
  blocks : ∀ b ∈ pieces.filterMap Piece.block?, b.IsPrintable

/-! ## Tokens of a body -/

theorem outside_flush (held : List Char) (tokens : List Token) :
    outside (Token.flush held tokens) =
      (held.reverse ++ (outside tokens).1, (outside tokens).2) := by
  cases held with
  | nil => simp [Token.flush]
  | cons c held => simp [Token.flush, outside]

theorem inside_flush (hasElse : Bool) (held : List Char) (tokens : List Token) :
    inside hasElse (Token.flush held tokens) =
      (inside hasElse tokens).map fun (body, rest) => (held.reverse ++ body, rest) := by
  cases held with
  | nil => simp [Token.flush]
  | cons c held => simp [Token.flush, inside]

theorem branch_eq (condition : Option String) (body : String) :
    branch condition body.toList = { condition, body := Segment.read (trimmed body) } := by
  simp [branch, Segment.read]

/-- A body up to the tag that closes the block. -/
theorem inside_closing (hasElse : Bool) {body : List Char} (hb : ¬ ['{', '%'] <:+: body)
    (rest : List Char) :
    inside hasElse (Token.scan [] none (body ++ (Directive.closing.tag ++ rest))) =
      some (body, [], outside (Token.scan [] none rest)) := by
  rw [Token.scan_append_tag hb .closing (by simp [Directive.condition?]), inside_flush]
  simp [inside]

/-- A body up to the tag of another branch. -/
theorem inside_alternative {condition : String} (hc : IsCondition condition) {body : List Char}
    (hb : ¬ ['{', '%'] <:+: body) {next : String} {rest : List Char} {later : List Branch}
    {after : List Char × List Node}
    (hrest : inside false (Token.scan [] none (next.toList ++ rest)) = some (next.toList, later, after)) :
    inside false (Token.scan [] none
        (body ++ ((Directive.alternative condition).tag ++ (next.toList ++ rest)))) =
      some (body, branch (some condition) next.toList :: later, after) := by
  have hd : ∀ c ∈ (Directive.alternative condition).condition?, IsCondition c := by
    simpa [Directive.condition?] using hc
  rw [Token.scan_append_tag hb (.alternative condition) hd, inside_flush]
  simp [inside, hrest]

/-- A body up to the tag of the branch for all other cases. -/
theorem inside_otherwise {body : List Char} (hb : ¬ ['{', '%'] <:+: body) {next : String}
    {rest : List Char} {later : List Branch} {after : List Char × List Node}
    (hrest : inside true (Token.scan [] none (next.toList ++ rest)) = some (next.toList, later, after)) :
    inside false (Token.scan [] none (body ++ (Directive.otherwise.tag ++ (next.toList ++ rest)))) =
      some (body, branch none next.toList :: later, after) := by
  rw [Token.scan_append_tag hb .otherwise (by simp [Directive.condition?]), inside_flush]
  simp [inside, hrest]

/-- The branches after a body, up to the end of the block.  Induction on the branches that have a
condition; the one that has none comes last. -/
theorem inside_laterArms (alternatives : List (String × String)) (otherwise : Option String)
    {body : List Char} (hb : ¬ ['{', '%'] <:+: body)
    (ha : ∀ arm ∈ alternatives, IsCondition arm.1 ∧ ¬ ['{', '%'] <:+: arm.2.toList)
    (ho : ∀ last ∈ otherwise, ¬ ['{', '%'] <:+: last.toList) (rest : List Char) :
    let later := Block.laterArms ⟨"", "", alternatives, otherwise⟩
    inside false (Token.scan [] none
        (body ++ (printArms later ++ (Directive.closing.tag ++ rest)))) =
      some (body, later.map (fun (d, body) => branch d.condition? body.toList),
        outside (Token.scan [] none rest)) := by
  induction alternatives generalizing body with
  | nil =>
      cases otherwise with
      | none => simpa [Block.laterArms, printArms] using inside_closing false hb rest
      | some last =>
          have hlast := inside_closing true (ho last rfl) rest
          simpa [Block.laterArms, printArms, Directive.condition?] using inside_otherwise hb hlast
  | cons arm alternatives ih =>
      obtain ⟨condition, next⟩ := arm
      obtain ⟨hc, hnext⟩ := ha (condition, next) List.mem_cons_self
      have hlater := ih hnext fun arm hm => ha arm (List.mem_cons_of_mem _ hm)
      simpa [Block.laterArms, printArms, Directive.condition?] using inside_alternative hc hb hlater

/-! ## Reading back -/

/-- A text in front of a block, the block, and what `ofTokens` makes of the rest. -/
theorem outside_block {run : List Char} (hrun : ¬ ['{', '%'] <:+: run) {b : Block} (hb : b.IsPrintable)
    (rest : List Char) :
    outside (Token.scan [] none (run ++ ((Piece.block b).print ++ rest))) =
      (run, .block b.branches :: ofTokens (Token.scan [] none rest)) := by
  obtain ⟨condition, body, alternatives, otherwise⟩ := b
  have hfirst := hb (.opening condition, body) (by simp [Block.arms])
  have hbranch : ∀ d ∈ (Directive.opening condition).condition?, IsCondition d := hfirst.1
  have halts : ∀ arm ∈ alternatives, IsCondition arm.1 ∧ ¬ ['{', '%'] <:+: arm.2.toList := by
    intro arm hm
    have harm := hb (.alternative arm.1, arm.2) (by simpa [Block.arms, Block.laterArms] using hm)
    exact ⟨harm.1 arm.1 rfl, harm.2⟩
  have hlast : ∀ last ∈ otherwise, ¬ ['{', '%'] <:+: last.toList := by
    intro last hm
    exact (hb (.otherwise, last) (by simpa [Block.arms, Block.laterArms] using hm)).2
  have hprint : (Piece.block ⟨condition, body, alternatives, otherwise⟩).print ++ rest =
      (Directive.opening condition).tag ++ (body.toList ++
        (printArms (Block.laterArms ⟨"", "", alternatives, otherwise⟩) ++
          (Directive.closing.tag ++ rest))) := by
    simp [Piece.print, Block.arms, Block.laterArms, printArms]
  have hinside := inside_laterArms alternatives otherwise hfirst.2 halts hlast rest
  rw [hprint, Token.scan_append_tag hrun _ hbranch, outside_flush]
  simp only [outside, hinside, ofTokens, branch_eq]
  simp [Block.branches, Block.arms, Block.laterArms, Directive.condition?]

/-- Pieces with a text in front of them.  Induction on the pieces; the text in front takes up those that
are text themselves, so it is only taken apart in front of a block and at the end. -/
theorem ofTokens_scan_print (pieces : List Piece) (run : String)
    (hruns : ∀ r ∈ runs run pieces, ¬ ['{', '%'] <:+: r.toList)
    (hblocks : ∀ b ∈ pieces.filterMap Piece.block?, b.IsPrintable) :
    ofTokens (Token.scan [] none (run.toList ++ pieces.flatMap Piece.print)) = nodes run pieces := by
  induction pieces generalizing run with
  | nil =>
      have hrun : ¬ ['{', '%'] <:+: run.toList := hruns run (by simp [runs])
      rw [List.flatMap_nil, List.append_nil, Token.scan_none_of_no_open hrun, ofTokens, outside_flush]
      simp [outside, nodes, segments, Segment.read]
  | cons piece pieces ih =>
      cases piece with
      | text s =>
          have hs := ih (run ++ s) (by simpa [runs] using hruns)
            (by simpa [Piece.block?] using hblocks)
          simpa [nodes, Piece.print] using hs
      | block b =>
          have hrun : ¬ ['{', '%'] <:+: run.toList := hruns run (by simp [runs])
          have hb : b.IsPrintable := hblocks b (by simp [Piece.block?])
          have hrest : ∀ b ∈ pieces.filterMap Piece.block?, b.IsPrintable :=
            fun b' hb' => hblocks b' (List.mem_cons_of_mem b hb')
          have hlater := ih "" (fun r hr => hruns r (by simp [runs, hr])) hrest
          rw [List.flatMap_cons, ofTokens, outside_block hrun hb]
          simp only [String.toList_empty, List.nil_append] at hlater
          simp [hlater, nodes, segments, Segment.read]

/-- **Reading undoes printing**: a printed template is read as the segments of its texts, with one block
between them for each printed block, whose branches have the printed conditions and bodies in order. -/
theorem parse_print (pieces : List Piece) (h : ArePrintable pieces) :
    parse (print pieces) = nodes "" pieces := by
  have hread := ofTokens_scan_print pieces "" h.runs h.blocks
  simpa [parse, print, Token.lex] using hread

/-- Two texts that make one placeholder, marks that share characters with a text, and marks of the other
kind inside a body. -/
theorem parse_print_touching_marks :
    let pieces : List Piece :=
      [.text "a\x7b", .text "\x7bn\x7d\x7d \x7b",
        .block ⟨"n == '\x7b'", " %\x7d \x7b\x7bn\x7d\x7d\x7b", [("if", "\x7b\x7b %")], some "\x7d\x7d"⟩,
        .text "%\x7d\x7b\x7b"]
    ArePrintable pieces ∧ parse (print pieces) =
      [.segment (.literal "a"), .segment (.placeholder "n" "\x7b\x7bn\x7d\x7d"),
        .segment (.literal " \x7b"),
        .block
          [⟨some "n == '\x7b'",
              [.literal "%\x7d ", .placeholder "n" "\x7b\x7bn\x7d\x7d", .literal "\x7b"]⟩,
            ⟨some "if", [.literal "\x7b\x7b %"]⟩, ⟨none, [.literal "\x7d\x7d"]⟩],
        .segment (.literal "%\x7d\x7b\x7b")] := by
  intro pieces
  have h : ArePrintable pieces := ⟨by decide +kernel, by unfold Block.IsPrintable; decide +kernel⟩
  exact ⟨h, (parse_print pieces h).trans (by decide +kernel)⟩

end ColumnLabel.Template
