import MdxLocalization.Document.Parsing
import MdxLocalization.Proofs.ElementRange
import MdxLocalization.Proofs.FragmentRange
import MdxLocalization.Proofs.ReadingOrder

/-!
# Parsed trees in range

Given that the regions of paragraphs end in the source, so does every span of a parsed tree, and no
scan runs past the end. How paragraphs are located is left open here: the one thing that is asked of
it is that it gives regions of the source, or an error. All errors of parsing are then errors of the
rules for blocks or of locating paragraphs.
-/

namespace MdxLocalization.Document

open Markdown (Block LineRange)

/-- A way to locate paragraphs gives regions of the source. -/
def LocatesInside (failure : ParseError → Prop) (locate : ParagraphLocator) : Prop :=
  ∀ f lines content, f.Within → Traced.Ends
    (fun region => ∀ r ∈ region, r.1 ≤ r.2 ∧ r.2 ≤ f.source.length) failure
    (locate f lines content)

variable {failure : ParseError → Prop} {locate : ParagraphLocator} {f : Fragment} {fold : Folder}

/-! ### Nodes without blocks in them -/

theorem inlineNodes_ends {region : Region} (within : region.2 ≤ f.source.length) :
    Traced.Ends (fun nodes => ∀ node ∈ nodes, node.InRange f.source.length) failure
      (inlineNodes f region) :=
  Traced.ends_ofExcept (Inline.scan_settles within)

theorem inRange_of_lines (within : f.Within) (lines : LineRange) {info : NodeInfo}
    {children : List Node} (placed : info.span = some (f.spanOfLines lines))
    (bare : info.attributes = []) (plain : ∀ field ∈ info.data, field.1 ≠ addressKey)
    (below : ∀ child ∈ children, child.InRange f.source.length) :
    Node.InRange f.source.length (.mk info children) := by
  refine .mk (NodeInfo.inRange_of_span ?_ bare plain) below
  intro s found
  rw [placed, Option.some.injEq] at found
  exact found ▸ within.spanOfLines_inside lines

theorem frontMatterNode_inRange (within : f.Within) {lines : LineRange} (first : lines.first = 0) :
    (frontMatterNode f lines).InRange f.source.length := by
  have starts := within.ordered.start_mono (Nat.zero_le (lines.last - 1))
  have stops := within.ordered.stop_le (lines.last - 1)
  have inSource := within.inSource
  refine Node.inRange_of_offsets rfl ?_ ?_ rfl ?_ (by simp)
  · rw [first]
    exact Nat.le_trans starts stops.1
  · exact Nat.le_trans stops.2 inSource
  · simp only [List.forall_mem_cons]
    constructor
    · decide
    · simp

theorem headingNode_ends (locates : LocatesInside failure locate) (within : f.Within)
    (lines inner : LineRange) (depth : Nat) (atx : Bool) (content : Text) :
    Traced.Ends (fun node => node.InRange f.source.length ∧ htmlRegion? node = none) failure
      (headingNode locate f lines inner depth atx content) := by
  have region : Traced.Ends (fun region => ∀ r ∈ region, r.2 ≤ f.source.length) failure
      (headingRegion locate f lines inner atx content) := by
    unfold headingRegion
    split
    · exact Traced.ends_pure fun r found => within.locateHeading?_le found
    · exact (locates f inner content within).imp fun region inside r found => (inside r found).2
  have plain : ∀ field ∈ [(Text.ofString "setext", Json.bool !atx)], field.1 ≠ addressKey := by
    simp only [List.forall_mem_cons]
    constructor
    · decide
    · simp
  unfold headingNode
  dsimp only
  apply region.bind
  intro found inside
  cases found with
  | none =>
      exact Traced.ends_pure ⟨inRange_of_lines within lines rfl rfl plain (by simp), rfl⟩
  | some region =>
      apply (inlineNodes_ends (inside region rfl)).map
      intro children below
      exact ⟨inRange_of_lines within lines rfl rfl plain below, rfl⟩

theorem esmNode_inRange {start stop : Nat} (inOrder : start ≤ stop)
    (within : stop ≤ f.source.length) : (esmNode f start stop).InRange f.source.length := by
  apply Node.inRange_of_offsets rfl inOrder within rfl (by simp)
  intro child member
  obtain ⟨found, imported, same⟩ := List.mem_map.mp member
  subst same
  refine .mk (NodeInfo.inRange_of_span ?_ rfl (by simp)) (by simp)
  intro s placed
  cases placed
  exact Esm.imports_inside f.source start stop found imported

theorem paragraphNode_ends (locates : LocatesInside failure locate) (within : f.Within)
    (outermost : Bool) (lines : LineRange) (content : Text) :
    Traced.Ends (fun node => node.InRange f.source.length ∧ htmlRegion? node = none) failure
      (paragraphNode locate f outermost lines content) := by
  unfold paragraphNode
  apply (locates f lines content within).bind
  intro found inside
  cases found with
  | none =>
      exact Traced.ends_pure ⟨Node.inRange_of_none rfl rfl (by simp), rfl⟩
  | some region =>
      obtain ⟨start, stop⟩ := region
      obtain ⟨inOrder, inSource⟩ := inside (start, stop) rfl
      dsimp only
      split
      · exact Traced.ends_pure ⟨esmNode_inRange inOrder inSource, rfl⟩
      · apply (inlineNodes_ends inSource).map
        intro children below
        exact ⟨Node.inRange_of_offsets rfl inOrder inSource rfl (by simp) below, rfl⟩

theorem cellNode_ends {region : Option Region}
    (within : ∀ r ∈ region, r.2 ≤ f.source.length) :
    Traced.Ends (fun node => node.InRange f.source.length) failure (cellNode f region) := by
  cases region with
  | none =>
      exact Traced.ends_pure (Node.inRange_of_none rfl rfl (by simp))
  | some region =>
      obtain ⟨start, stop⟩ := region
      have inSource : stop ≤ f.source.length := within (start, stop) rfl
      rw [cellNode]
      split
      · rename_i filled
        apply (inlineNodes_ends inSource).map
        intro children below
        exact Node.inRange_of_offsets rfl (Nat.le_of_lt filled) inSource rfl (by simp) below
      · exact Traced.ends_pure (Node.inRange_of_none rfl rfl (by simp))

theorem rowNode_ends (within : f.Within) (row : Markdown.TableRow) :
    Traced.Ends (fun node => node.InRange f.source.length) failure (rowNode f row) := by
  unfold rowNode
  dsimp only
  refine (Traced.ends_mapM fun i _ => cellNode_ends ?_).map fun cells below => ?_
  · intro r found
    exact within.locateCells_le row.line r (List.mem_of_getElem? found)
  · exact inRange_of_lines within ⟨row.line, row.line + 1⟩ rfl rfl (by simp) below

theorem codeNode_inRange (within : f.Within) (lines : LineRange) (info content : Text) :
    (codeNode f lines info content).InRange f.source.length := by
  refine inRange_of_lines within lines rfl rfl ?_ (by simp)
  dsimp only
  split
  · simp
  · simp only [List.forall_mem_cons]
    constructor
    · decide
    · simp

theorem labelNodes_ends (within : f.Within) (line : Nat) :
    Traced.Ends (fun nodes => ∀ node ∈ nodes, node.InRange f.source.length) failure
      (labelNodes f line) := by
  unfold labelNodes
  split
  · exact Traced.ends_pure (by simp)
  · rename_i start stop found
    obtain ⟨inOrder, inSource⟩ := within.locateLabel?_within found
    dsimp only at inOrder inSource
    have inner : stop - 1 ≤ f.source.length := Nat.le_trans (Nat.sub_le _ _) inSource
    apply (inlineNodes_ends inner).map
    intro children below
    have plain : ∀ field ∈ [(Text.ofString "directiveLabel", Json.bool true)],
        field.1 ≠ addressKey := by
      decide
    simpa using Node.inRange_of_offsets rfl inOrder inSource rfl plain below

/-! ### Nodes of blocks -/

/-- The nodes of a block are in range. Raw HTML stands in its lines, and no other block becomes
raw HTML. -/
structure NodesOf (f : Fragment) (block : Block) (nodes : List Node) : Prop where
  inRange : ∀ node ∈ nodes, node.InRange f.source.length
  noHtml : block.htmlLines? = none → ∀ node ∈ nodes, htmlRegion? node = none
  html : ∀ lines, block.htmlLines? = some lines → lines.first < lines.last →
    HtmlWithin (f.lines.start lines.first) (f.lines.start lines.last) nodes

theorem nodesOf_single {block : Block} {node : Node} (inRange : node.InRange f.source.length)
    (noNode : htmlRegion? node = none) (noHtml : block.htmlLines? = none) :
    NodesOf f block [node] where
  inRange := by simpa using inRange
  noHtml := fun _ => by simpa using noNode
  html := by simp [noHtml]

/-- The nodes of siblings, with the raw HTML among them from the start of a line on. -/
abbrev NodesFrom (f : Fragment) (line : Nat) (nodes : List Node) : Prop :=
  Placed f.source.length (f.lines.start line) (f.lines.base + f.lines.text.length) nodes

theorem nodesFrom_nil (within : f.Within) (line : Nat) : NodesFrom f line [] where
  html := Nat.le_trans (within.ordered.stop_le line).1 (within.ordered.stop_le line).2
  inRange := by simp

/-- Behind a block there is a line from which the blocks after it are in order, and the nodes of
these go with the nodes of the block. -/
theorem exists_line_behind (within : f.Within) {line : Nat} {block : Block} {rest : List Block}
    (sequence : Markdown.Sequence line (block :: rest)) :
    ∃ next, Markdown.Sequence next rest ∧
      ∀ nodes others, NodesOf f block nodes → NodesFrom f next others →
        NodesFrom f line (nodes ++ others) := by
  have below := (List.forall_mem_cons.mp sequence.orderly).2
  cases isHtml : block.htmlLines? with
  | none =>
      refine ⟨line, ⟨(Markdown.htmlFrom_cons_none isHtml).mp sequence.html, below⟩, ?_⟩
      intro nodes others first after
      have before : HtmlWithin (f.lines.start line) (f.lines.start line) nodes :=
        htmlWithin_of_none (first.noHtml isHtml) (Nat.le_refl _)
      exact Placed.append ⟨before, first.inRange⟩ after
  | some lines =>
      obtain ⟨le, filled, siblings⟩ := (Markdown.htmlFrom_cons_some isHtml).mp sequence.html
      refine ⟨lines.last, ⟨siblings, below⟩, ?_⟩
      intro nodes others first after
      have before := (first.html lines isHtml filled).mono (within.ordered.start_mono le)
        (Nat.le_refl _)
      exact Placed.append ⟨before, first.inRange⟩ after

theorem htmlWithin_spanOfLines (within : f.Within) {lines : LineRange}
    (filled : lines.first < lines.last) (value : Text) :
    HtmlWithin (f.lines.start lines.first) (f.lines.start lines.last)
      [.mk { kind := .html, value := some value, span := some (f.spanOfLines lines) } []] := by
  have bounds := within.ordered.extent_within lines.first lines.last
  have before := within.ordered.extent_le_start filled
  exact (htmlWithin_cons_some rfl).mpr ⟨bounds.1, bounds.2.1, before⟩

theorem nodesOf_html (within : f.Within) (lines : LineRange) (content : Text) :
    NodesOf f (.html lines content)
      [.mk { kind := .html, value := some ((f.spanOfLines lines).slice f.source),
             span := some (f.spanOfLines lines) } []] where
  inRange := by simpa using inRange_of_lines within lines rfl rfl (by simp) (by simp)
  noHtml := by simp [Block.htmlLines?]
  html := by
    intro covered same filled
    cases same
    exact htmlWithin_spanOfLines within filled _

mutual

/-- A block becomes nodes in range, whose children have been folded. -/
theorem blockNodes_ends (locates : LocatesInside failure locate) (within : f.Within)
    (folds : FoldsPlaced f.source.length failure fold) (outermost : Bool) :
    (block : Block) → block.Orderly →
      Traced.Ends (NodesOf f block) failure (blockNodes locate f fold outermost block)
  | .frontMatter lines, .mk opening _ _ => by
      rw [blockNodes]
      exact Traced.ends_pure
        (nodesOf_single (frontMatterNode_inRange within (opening lines rfl)) rfl rfl)
  | .heading lines inner depth atx content, _ => by
      rw [blockNodes]
      apply (headingNode_ends locates within lines inner depth atx content).map
      exact fun node facts => nodesOf_single facts.1 facts.2 rfl
  | .paragraph lines tight content, _ => by
      rw [blockNodes]
      apply (paragraphNode_ends locates within outermost lines content).map
      exact fun node facts => nodesOf_single facts.1 facts.2 rfl
  | .indentedCode lines content, _ => by
      rw [blockNodes]
      exact Traced.ends_pure (nodesOf_single (codeNode_inRange within lines [] content) rfl rfl)
  | .fencedCode lines info content, _ => by
      rw [blockNodes]
      exact Traced.ends_pure (nodesOf_single (codeNode_inRange within lines info content) rfl rfl)
  | .html lines content, _ => by
      rw [blockNodes]
      exact Traced.ends_pure (nodesOf_html within lines content)
  | .thematicBreak lines, _ => by
      rw [blockNodes]
      have node : Node.InRange f.source.length
          (.mk { kind := .thematicBreak, span := some (f.spanOfLines lines) } []) :=
        inRange_of_lines within lines rfl rfl (by simp) (by simp)
      exact Traced.ends_pure (nodesOf_single node rfl rfl)
  | .blockquote lines children, .mk _ html below => by
      rw [blockNodes]
      have siblings := nodesOfBlocks_ends locates within folds false children 0 ⟨html, below⟩
      apply siblings.map
      intro nodes placed
      exact nodesOf_single (inRange_of_lines within lines rfl rfl (by simp) placed.inRange) rfl rfl
  | .list lines start items, .mk _ html below => by
      have plain : ∀ field ∈ [(Text.ofString "ordered", Json.bool start.isSome)],
          field.1 ≠ addressKey := by
        simp only [List.forall_mem_cons]
        constructor
        · decide
        · simp
      rw [blockNodes]
      have siblings := nodesOfBlocks_ends locates within folds false items 0 ⟨html, below⟩
      apply siblings.map
      intro nodes placed
      exact nodesOf_single (inRange_of_lines within lines rfl rfl plain placed.inRange) rfl rfl
  | .item lines children, .mk _ html below => by
      rw [blockNodes]
      have siblings := nodesOfBlocks_ends locates within folds false children 0 ⟨html, below⟩
      apply siblings.bind
      intro nodes placed
      apply (folds _ _ _ within.inSource placed).map
      intro folded kept
      exact nodesOf_single (inRange_of_lines within lines rfl rfl (by simp) kept.inRange) rfl rfl
  | .table lines alignments header rows, _ => by
      rw [blockNodes]
      refine (Traced.ends_mapM fun row _ => rowNode_ends within row).map fun nodes below => ?_
      exact nodesOf_single (inRange_of_lines within lines rfl rfl (by simp) below) rfl rfl
  | .directive lines info children, .mk _ html below => by
      rw [blockNodes]
      apply (labelNodes_ends within lines.first).bind
      intro label labelInRange
      have siblings := nodesOfBlocks_ends locates within folds false children 0 ⟨html, below⟩
      apply siblings.bind
      intro nodes placed
      apply (folds _ _ _ within.inSource placed).map
      intro folded kept
      have content := List.forall_mem_append.mpr ⟨labelInRange, kept.inRange⟩
      refine nodesOf_single (.mk (NodeInfo.inRange_of_span ?_ rfl (by simp)) content) rfl rfl
      intro s placed
      cases placed
      exact within.directiveSpan_inside lines
  | .definition label url title, _ => by
      rw [blockNodes]
      exact Traced.ends_pure ⟨by simp, by simp, by simp [Block.htmlLines?]⟩

/-- Blocks in order become nodes in order. -/
theorem nodesOfBlocks_ends (locates : LocatesInside failure locate) (within : f.Within)
    (folds : FoldsPlaced f.source.length failure fold) (outermost : Bool) :
    (blocks : List Block) → (line : Nat) → Markdown.Sequence line blocks →
      Traced.Ends (NodesFrom f line) failure (nodesOfBlocks locate f fold outermost blocks)
  | [], line, _ => by
      rw [nodesOfBlocks]
      exact Traced.ends_pure (nodesFrom_nil within line)
  | block :: rest, line, sequence => by
      have orderly := (List.forall_mem_cons.mp sequence.orderly).1
      obtain ⟨next, siblings, join⟩ := exists_line_behind within sequence
      rw [nodesOfBlocks]
      have ends := blockNodes_ends locates within folds outermost block orderly
      apply ends.bind
      intro nodes first
      have others := nodesOfBlocks_ends locates within folds outermost rest next siblings
      apply others.map
      intro others further
      exact join nodes others first further

end

theorem blocks_settles (fails : failure .pastEnd) (t : Text) :
    Settles (Markdown.Sequence 0) failure ((Markdown.blocks t).mapError ParseError.ofBlocks) := by
  have sequence := Markdown.blocks_sequence t
  cases read : Markdown.blocks t with
  | ok blocks =>
      rw [read] at sequence
      exact sequence
  | error e =>
      exact fails

/-- The nodes of a fragment stand in it, with its elements folded. -/
theorem fragmentNodes_ends (locates : LocatesInside failure locate) (within : f.Within)
    (folds : FoldsPlaced f.source.length failure fold) (fails : failure .pastEnd) :
    Traced.Ends (Placed f.source.length f.lines.base (f.lines.base + f.lines.text.length)) failure
      (fragmentNodes locate f fold) := by
  unfold fragmentNodes
  apply (Traced.ends_ofExcept (blocks_settles fails f.text)).bind
  intro blocks sequence
  have siblings := nodesOfBlocks_ends locates within folds true blocks 0 sequence
  apply siblings.bind
  intro nodes placed
  refine folds _ _ _ within.inSource ⟨?_, placed.inRange⟩
  exact placed.html.mono (f.lines.base_le_start 0) (Nat.le_refl _)

/-! ### Trees -/

/-- Folding leaves nodes where they stand, however deep elements are nested. -/
theorem foldElements_folds (locates : LocatesInside failure locate) (fails : failure .pastEnd)
    (source : Text) (budget : Nat) :
    FoldsPlaced source.length failure (foldElements locate source budget) := by
  induction budget with
  | zero =>
      intro lower upper nodes _ placed
      exact Traced.ends_pure placed
  | succ budget hypothesis =>
      intro lower upper nodes within placed
      rw [foldElements]
      refine foldFrom_ends ?_ hypothesis within 0 placed
      intro start stop inOrder inSource
      dsimp only
      split
      · exact Traced.ends_pure ⟨inOrder, by simp⟩
      · have inside : (Fragment.between source start stop false).Within :=
          Fragment.between_within (Nat.le_trans inOrder inSource) stop false
        have size : start + (Text.slice source start stop).length = stop := by
          rw [Text.length_slice]
          omega
        have nodes := fragmentNodes_ends locates inside hypothesis fails
        exact nodes.imp fun nodes placed => size ▸ placed

/-- When paragraphs are located in the source, parsing gives a tree in range or ends with an error
of the rules for blocks or of locating paragraphs. -/
theorem parseWith_ends (locates : LocatesInside failure locate) (fails : failure .pastEnd)
    (source : Text) :
    Traced.Ends (Node.InRange source.length) failure (parseWith locate source) := by
  have within : (Fragment.between source 0 source.length true).Within :=
    Fragment.between_within (Nat.zero_le _) source.length true
  have folds := foldElements_folds locates fails source (source.length + 1)
  unfold parseWith
  dsimp only
  apply (fragmentNodes_ends locates within folds fails).bind
  intro children placed
  refine (Traced.ends_log _).bind fun _ _ => Traced.ends_pure ?_
  refine .mk (NodeInfo.inRange_of_span ?_ rfl (by simp)) placed.inRange
  intro s found
  dsimp only at found
  split at found
  · cases found
  · cases found
    exact Span.ofNats_inside (Nat.zero_le _) (Nat.le_refl _)

end MdxLocalization.Document
