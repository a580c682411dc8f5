import ColumnLabel.Proofs.Template.Layout
import ColumnLabel.Proofs.Template.Segments

/-!
# ColumnLabel.Proofs.Template.Appended

Texts that are appended to a template.

Where a template ends with a block nothing is left open, so a text behind it is read by itself.  Seen from its layout,
the layout of the whole is that of the template with that of the text in the place of its last part
(`Layout.append`).  In the same way the placeholders of a text do not depend on what follows the last one, if the text
ends with it.  The main statement is `parse_append_of_block`.
-/

namespace ColumnLabel

namespace Template

/-! ## Layouts one behind the other -/

namespace Layout

variable {l m : Layout}

/-- The text behind the last block. -/
def rest : Layout → List Char
  | last text => text
  | block _ _ l => l.rest

/-- The layout with another one in the place of its last part. -/
def append : Layout → Layout → Layout
  | last _, m => m
  | block front span l, m => block front span (l.append m)

theorem source_append (h : l.rest = []) (m : Layout) : (l.append m).source = l.source ++ m.source := by
  induction l with
  | last text => simp [append, source, show text = [] from h]
  | block front span l ih => simp [append, source, ih h]

theorem IsExact.append (hl : l.IsExact) (hm : m.IsExact) : (l.append m).IsExact := by
  induction l with
  | last text => exact hm
  | block front span l ih => exact ⟨hl.1, hl.2.1, ih hl.2.2⟩

theorem nodes_append (h : l.rest = []) (m : Layout) : (l.append m).nodes = l.nodes ++ m.nodes := by
  induction l with
  | last text =>
      rw [nodes, show text = [] from h]
      rfl
  | block front span l ih => simp [append, nodes, ih h]

/-- Where no segment comes last, nothing stands behind the last block. -/
theorem rest_eq_nil (h : ∀ s, l.nodes.getLast? ≠ some (.segment s)) : l.rest = [] := by
  induction l with
  | last text =>
      cases hlast : (Segment.readChars text).getLast? with
      | none =>
          have hsources := Segment.toList_sources_readChars text
          rw [List.getLast?_eq_none_iff.mp hlast, Segment.sources_nil] at hsources
          exact hsources.symm
      | some s =>
          refine absurd ?_ (h s)
          rw [nodes, segments, List.getLast?_map, hlast]
          rfl
  | block front span l ih =>
      refine ih fun s hs => h s ?_
      rw [nodes, List.getLast?_append, List.getLast?_append, hs]
      rfl

end Layout

/-! ## Templates one behind the other -/

/-- Behind a template that ends with a block a text is read as if it stood alone. -/
theorem parse_append {a : String} {nodes : Template} {branches : List Branch}
    (h : parse a = nodes ++ [.block branches]) (b : String) : parse (a ++ b) = parse a ++ parse b := by
  obtain ⟨l, hl, hexact⟩ := exists_layout a.toList
  obtain ⟨m, hm, hexact'⟩ := exists_layout b.toList
  have hread : ∀ {l : Layout} {text : String}, l.source = text.toList → l.IsExact → parse text = l.nodes :=
    fun hsource hexact => by rw [parse, ← hsource, hexact.ofTokens_eq.1]
  have hrest : l.rest = [] := by
    refine Layout.rest_eq_nil fun s hs => ?_
    rw [← hread hl hexact, h, List.getLast?_concat] at hs
    cases hs
  have hsource : (l.append m).source = (a ++ b).toList := by
    rw [Layout.source_append hrest, hl, hm, String.toList_append]
  rw [hread hsource (hexact.append hexact'), Layout.nodes_append hrest, ← hread hl hexact, ← hread hm hexact']

/-- Templates that are read one behind the other have their blocks resolved one behind the other. -/
theorem resolveBlocks_append {a b : String} (h : parse (a ++ b) = parse a ++ parse b) (c : Context)
    (logger : String) : c.resolveBlocks logger (a ++ b) =
      ((c.resolveBlocks logger a).1 ++ (c.resolveBlocks logger b).1,
        (c.resolveBlocks logger a).2 ++ (c.resolveBlocks logger b).2) := by
  simp only [Context.resolveBlocks, h, List.map_append, List.flatMap_append, String.join_append]

/-- Behind a text that ends with a placeholder a text is read as if it stood alone. -/
theorem read_append {a name raw : String} {segments : List Segment}
    (h : Segment.read a = segments ++ [.placeholder name raw]) (b : String) :
    Segment.read (a ++ b) = Segment.read a ++ Segment.read b := by
  have hmem : .placeholder name raw ∈ Segment.read a := by simp [h]
  have hraw := Segment.isRead_of_mem_readChars a.toList _ hmem
  have ha : a = Segment.sources segments ++ raw := by
    rw [← Segment.sources_read a, h, Segment.sources_append]
    simp
  have hparts (after : String) : Segment.read (a ++ after) =
      Segment.read (Segment.sources segments) ++ .placeholder name raw :: Segment.read after := by
    rw [ha, String.append_assoc, Segment.read_append_placeholder hraw]
  have halone := hparts ""
  rw [String.append_empty] at halone
  rw [hparts b, halone]
  simp [Segment.read, Segment.readChars, Segment.scan, Segment.flush]

/-- **Nothing reaches over the end of a block or a placeholder**: behind a template that ends with a block every text is
read, and its blocks are resolved, as if it stood alone, and the placeholders of a text behind one are those that it has
alone. -/
theorem parse_append_of_block (a b : String) :
    (∀ nodes branches, parse a = nodes ++ [.block branches] →
      parse (a ++ b) = parse a ++ parse b ∧
        ∀ (c : Context) (logger : String), c.resolveBlocks logger (a ++ b) =
          ((c.resolveBlocks logger a).1 ++ (c.resolveBlocks logger b).1,
            (c.resolveBlocks logger a).2 ++ (c.resolveBlocks logger b).2)) ∧
      ∀ segments name raw, Segment.read a = segments ++ [.placeholder name raw] →
        Segment.read (a ++ b) = Segment.read a ++ Segment.read b := by
  refine ⟨fun nodes branches h => ?_, fun segments name raw h => read_append h b⟩
  have hparse := parse_append h b
  exact ⟨hparse, resolveBlocks_append hparse⟩

/-- A block behind which a text starts with half of its closing mark, and a placeholder behind which braces follow.
Where `p` and `q` hold, the text after the block has its own block resolved, but not the half of one. -/
theorem parse_append_of_block_torn_marks :
    let a := "{{n}}{% if p %}{% if q %}x{% endif %}"
    let b := "%\x7dy{% endif %}{% if q %}z{% endif %}"
    let c := (Context.empty.set "p" (.bool true)).set "q" (.bool true)
    parse a = [.segment (.placeholder "n" "{{n}}")] ++ [.block [⟨some "p", [.literal "{% if q %}x"]⟩]] ∧
      parse (a ++ b) = parse a ++ parse b ∧
      c.resolveBlocks "" (a ++ b) = ((c.resolveBlocks "" a).1 ++ (c.resolveBlocks "" b).1,
        (c.resolveBlocks "" a).2 ++ (c.resolveBlocks "" b).2) ∧
      (c.resolveBlocks "" a).1 = "{{n}}{% if q %}x" ∧ (c.resolveBlocks "" b).1 = "%\x7dy{% endif %}z" ∧
      Segment.read "x{{n}}" = [.literal "x"] ++ [.placeholder "n" "{{n}}"] ∧
      Segment.read ("x{{n}}" ++ "\x7d\x7d{{m}}") = Segment.read "x{{n}}" ++ Segment.read "\x7d\x7d{{m}}" := by
  intro a b c
  have hparse : parse a =
      [.segment (.placeholder "n" "{{n}}")] ++ [.block [⟨some "p", [.literal "{% if q %}x"]⟩]] := by
    decide
  have hread : Segment.read "x{{n}}" = [.literal "x"] ++ [.placeholder "n" "{{n}}"] := by decide
  obtain ⟨happend, hblocks⟩ := (parse_append_of_block a b).1 _ _ hparse
  exact ⟨hparse, happend, hblocks c "", by decide, by decide +kernel, hread,
    (parse_append_of_block "x{{n}}" "\x7d\x7d{{m}}").2 _ _ _ hread⟩

end Template

end ColumnLabel
