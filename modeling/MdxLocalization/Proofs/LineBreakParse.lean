import MdxLocalization.Proofs.LineBreakModules
import MdxLocalization.Proofs.LineBreakTree
import MdxLocalization.Proofs.ParseNesting
import MdxLocalization.Proofs.ParseRange

/-!
# Parsing with the other kind of line breaks

A text and the same text with carriage returns have the same blocks, and these become nodes that
mirror each other. One thing has to be excluded: a paragraph whose region ends behind its last line.
How far such a region reaches depends on how long the break behind that line is.
-/

namespace MdxLocalization.Document

open Markdown (Block LineRange)
open Traced (Relates Leaves)

/-! ### Paragraphs that end in their lines -/

/-- Locates the content of a paragraph, but refuses a region that ends behind the last line. -/
def Fragment.locateInLines (f : Fragment) (lines : LineRange) (content : Text) :
    Traced ParseError (Option Region) := do
  match ← f.locateParagraph lines content with
  | none => return none
  | some region =>
    if f.lines.stop (lines.last - 1) < region.2 then throw .regionPastEnd else return some region

/-- While the source is parsed, a paragraph is located whose region ends behind its last line. -/
def Overshoots (source : Text) : Prop :=
  (parseWith Fragment.locateInLines source).outcome.1 = .error .regionPastEnd

theorem locateParagraph_allows (f : Fragment) (lines : LineRange) (content : Text) :
    Allows (f.locateParagraph lines content) (f.locateInLines lines content) := by
  intro events
  unfold Fragment.locateInLines
  rw [Traced.bind_apply]
  cases (f.locateParagraph lines content : Traced ParseError _) events with
  | mk result after =>
      cases result with
      | error e =>
          exact Or.inl rfl
      | ok found =>
          cases found with
          | none =>
              exact Or.inl rfl
          | some region =>
              by_cases past : f.lines.stop (lines.last - 1) < region.2
              · refine Or.inr ⟨?_, trivial⟩
                dsimp only
                rw [if_pos past]
                rfl
              · apply Or.inl
                dsimp only
                rw [if_neg past]
                rfl

theorem foldElements_allows_locate {locate locate' : ParagraphLocator}
    (locates : ∀ f lines content, Allows (locate f lines content) (locate' f lines content))
    (source : Text) (budget : Nat) (nodes : List Node) :
    Allows (foldElements locate source budget nodes)
      (foldElements locate' source budget nodes) := by
  induction budget generalizing nodes with
  | zero =>
      exact .refl _ _ _
  | succ budget hypothesis =>
      rw [foldElements, foldElements]
      refine foldFrom_allows (fun start stop => ?_) hypothesis 0 nodes
      split
      · exact .refl _ _ _
      · unfold fragmentNodes
        refine Allows.bind (.refl _ _ _) fun blocks => ?_
        exact (nodesOfBlocks_allows locates _ hypothesis true blocks).bind hypothesis

/-- Parsing does as parsing with refusal does, unless that ends with a refusal. -/
theorem parse_allows_locateInLines (source : Text) :
    Allows (parse source) (parseWith Fragment.locateInLines source) := by
  have folds := foldElements_allows_locate locateParagraph_allows source (source.length + 1)
  unfold parse parseWith fragmentNodes
  refine Allows.bind (Allows.bind (.refl _ _ _) fun blocks => ?_) fun children => .refl _ _ _
  exact (nodesOfBlocks_allows locateParagraph_allows _ folds true blocks).bind folds

theorem locateInLines_locates : LocatesInside (fun _ => True) Fragment.locateInLines := by
  intro f lines content within
  apply (within.locateParagraph_starts lines content).bind
  intro region starts
  cases region with
  | none =>
      exact Traced.ends_pure (by simp)
  | some region =>
      dsimp only
      split
      · exact Traced.ends_throw trivial
      · rename_i inside
        have stops := (within.ordered.stop_le (lines.last - 1)).2
        have inSource := within.inSource
        apply Traced.ends_pure
        intro r located
        cases located
        exact ⟨(starts region rfl).1, by omega⟩

variable {f g : Fragment}

theorem stop_le_start_add_length (within : f.Within) (line : Nat) :
    f.lines.stop line ≤ f.lines.start line + (f.lines.line line).length := by
  cases found : f.lines.bounds[line]? with
  | none =>
      obtain ⟨starts, stops, -⟩ := SourceLines.start_of_absent found
      omega
  | some b =>
      obtain ⟨starts, stops⟩ := SourceLines.start_of_bounds found
      have bounds := within.ordered.within b (List.mem_of_getElem? found)
      have content : f.lines.line line = Text.slice f.lines.text b.1 b.2 := by
        simp only [SourceLines.line, found]
      rw [content, Text.length_slice]
      omega

/-- A region that ends in the lines of a paragraph is found at the moved place. -/
theorem locateInLines_relates (alike : Fragment.Alike f g) (within : f.Within) (lines : LineRange)
    (content : Text) :
    Relates (fun region region' => region' = region.map (Region.moved f.source))
      (f.locateInLines lines content) (g.locateParagraph lines content) := by
  -- A length is carried over within a line only, so the end is known while it is in the last line.
  have located : Relates
      (fun (region region' : Option Region) =>
        region.isSome = region'.isSome ∧ ∀ r ∈ region, ∀ r' ∈ region',
          r.2 ≤ f.lines.stop (lines.last - 1) → r' = Region.moved f.source r)
      (f.locateParagraph lines content : Traced ParseError _)
      (g.locateParagraph lines content) := by
    unfold Fragment.locateParagraph
    split
    · exact Traced.relates_pure ⟨rfl, by simp⟩
    · dsimp only
      split
      · refine (Traced.relates_any _ _).map fun _ _ _ => ⟨rfl, ?_⟩
        rintro r ⟨⟩ r' ⟨⟩ -
        exact alike.extent _ _
      · refine Traced.relates_pure ⟨rfl, ?_⟩
        rintro r ⟨⟩ r' ⟨⟩ inside
        obtain ⟨k, kInLine, starts, starts'⟩ := alike.contentOffset lines.first
          ((Text.splitOn '\n' content).head?.getD []) ((Text.splitOn '\n' content).length = 1)
        obtain ⟨n, -, stops, stops'⟩ := alike.contentOffset (lines.last - 1)
          ((Text.splitOn '\n' content).getLast?.getD []) true
        have lineEnd := stop_le_start_add_length within (lines.last - 1)
        have before := Nat.le_trans (Nat.le_max_right _ _) inside
        rw [stops, Nat.add_assoc] at before
        have first := alike.start lines.first k kInLine
        have last := alike.start (lines.last - 1)
          (n + ((Text.splitOn '\n' content).getLast?.getD []).length) (by omega)
        rw [starts, starts', stops, stops', first, Nat.add_assoc, Nat.add_assoc, last]
        exact Prod.ext rfl (Text.moved_max _ _ _).symm
  have alone : (g.locateParagraph lines content : Traced ParseError _) =
      g.locateParagraph lines content >>= pure := (bind_pure _).symm
  rw [alone]
  unfold Fragment.locateInLines
  refine located.bind ?_
  rintro region region' ⟨both, same⟩
  cases region with
  | none =>
      cases region' with
      | none =>
          exact Traced.relates_pure rfl
      | some region' =>
          cases both
  | some region =>
      cases region' with
      | none =>
          cases both
      | some region' =>
          dsimp only
          split
          · exact Traced.relates_throw _ _
          · rename_i inside
            exact Traced.relates_pure (congrArg some (same _ rfl _ rfl (Nat.not_lt.mp inside)))

/-! ### Nodes without blocks in them -/

/-- Scanned content tiles its region in both texts. -/
theorem inlineNodes_relates (alike : Fragment.Alike f g) (region : Region) {region' : Region}
    (moved : region' = Region.moved f.source region) (inOrder : region.1 ≤ region.2)
    (within : region.1 ≤ f.source.length) :
    Relates (fun nodes nodes' => Inline.Tiling region.1 region.2 nodes ∧
        Inline.Tiling (Text.moved f.source region.1) (Text.moved f.source region.2) nodes')
      (inlineNodes f region) (inlineNodes g region') := by
  subst moved
  apply Traced.relates_ofExcept
  intro nodes nodes' scanned scanned'
  refine ⟨Inline.scan_tiling inOrder within scanned, ?_⟩
  apply Inline.scan_tiling (Text.moved_le_iff.mpr inOrder) ?_ scanned'
  rw [alike.source, ← Text.moved_length]
  exact Text.moved_le_iff.mpr within

theorem frontMatterNode_mirrors (alike : Fragment.Alike f g) (lines : LineRange) :
    (frontMatterNode f lines).Mirrors f.source (frontMatterNode g lines) := by
  refine Node.mirrors_of_children ⟨rfl, rfl, ?_, rfl, by simp, by simp, fun _ => ?_, ?_⟩ .nil
  · dsimp only [Option.map_some]
    rw [alike.start_zero, alike.stop, ← Span.moved_ofNats]
  · dsimp only
    rw [alike.start_zero, alike.stop, alike.source, Text.slice_addReturns]
    by_cases short : lines.last < lines.first + 1 + 2
    · refine ⟨f.lines.start (lines.first + 1), f.lines.start (lines.first + 1), ?_, rfl, ?_, rfl⟩
      · rw [if_pos short, Text.slice, Nat.sub_self, List.take_zero]
      · rw [if_pos short, Text.slice, Nat.sub_self, List.take_zero, Text.addReturns_nil]
    · refine ⟨f.lines.start (lines.first + 1), f.lines.stop (lines.last - 2), ?_, rfl, ?_, rfl⟩
      · rw [if_neg short]
      · rw [if_neg short]
  · intro labelled
    cases labelled

theorem locateHeading?_inOrder {line : Nat} {content : Text} {region : Region}
    (found : f.locateHeading? line content = some region) : region.1 ≤ region.2 := by
  unfold Fragment.locateHeading? at found
  split at found
  · cases found
  · obtain ⟨n, -, rfl⟩ := Option.map_eq_some_iff.mp found
    exact Nat.le_add_right _ _

theorem headingNode_relates (alike : Fragment.Alike f g) (within : f.Within)
    (lines inner : LineRange) (depth : Nat) (atx : Bool) (content : Text) :
    Relates (Node.Mirrors f.source)
      (headingNode Fragment.locateInLines f lines inner depth atx content)
      (headingNode Fragment.locateParagraph g lines inner depth atx content) := by
  have region : Relates
      (fun (region region' : Option Region) => region' = region.map (Region.moved f.source) ∧
        ∀ r ∈ region, r.1 ≤ r.2 ∧ r.2 ≤ f.source.length)
      (headingRegion Fragment.locateInLines f lines inner atx content)
      (headingRegion Fragment.locateParagraph g lines inner atx content) := by
    cases atx with
    | true =>
        refine Traced.relates_pure ⟨alike.locateHeading? _ _, fun r found => ?_⟩
        exact ⟨locateHeading?_inOrder found, within.locateHeading?_le found⟩
    | false =>
        exact (locateInLines_relates alike within inner content).and_leaves
          (locateInLines_locates f inner content within)
  have own : NodeInfo.Mirrors f.source
      { kind := .heading, depth := some (depth : Int), span := some (f.spanOfLines lines),
        data := [(Text.ofString "setext", .bool !atx)] }
      { kind := .heading, depth := some (depth : Int), span := some (g.spanOfLines lines),
        data := [(Text.ofString "setext", .bool !atx)] } :=
    NodeInfo.mirrors_of_span (by simp) (by cases atx <;> rfl)
      (congrArg some (alike.spanOfLines lines))
  unfold headingNode
  dsimp only
  refine region.bind ?_
  rintro region region' ⟨rfl, bounds⟩
  cases region with
  | none =>
      exact Traced.relates_pure (Node.mirrors_of_children own .nil)
  | some region =>
      obtain ⟨inOrder, inSource⟩ := bounds region rfl
      refine (inlineNodes_relates alike _ rfl inOrder (Nat.le_trans inOrder inSource)).map ?_
      intro children children' tilings
      exact .inline own (Or.inl rfl) (by simp) tilings.1 tilings.2

theorem esmNode_mirrors (alike : Fragment.Alike f g) (start stop : Nat) :
    (esmNode f start stop).Mirrors f.source
      (esmNode g (Text.moved f.source start) (Text.moved f.source stop)) := by
  unfold esmNode
  rw [alike.source, Esm.imports_addReturns]
  refine Node.mirrors_of_children ?_ ?_
  · exact NodeInfo.mirrors_of_span (by simp) rfl (congrArg some (Span.moved_ofNats _ _ _).symm)
  · rw [List.map_map]
    refine List.forall₂_map_left_iff.mpr (List.forall₂_map_right_iff.mpr ?_)
    refine List.forall₂_same.mpr fun found member => ?_
    exact Node.mirrors_of_children (NodeInfo.mirrors_of_span (by simp) rfl rfl) .nil

theorem paragraphNode_relates (alike : Fragment.Alike f g) (within : f.Within) (outermost : Bool)
    (lines : LineRange) (content : Text) :
    Relates (Node.Mirrors f.source)
      (paragraphNode Fragment.locateInLines f outermost lines content)
      (paragraphNode Fragment.locateParagraph g outermost lines content) := by
  unfold paragraphNode
  refine ((locateInLines_relates alike within lines content).and_leaves
    (locateInLines_locates f lines content within)).bind ?_
  rintro region region' ⟨rfl, bounds⟩
  cases region with
  | none =>
      exact Traced.relates_pure
        (Node.mirrors_of_children (NodeInfo.mirrors_of_span (by simp) rfl rfl) .nil)
  | some region =>
      obtain ⟨start, stop⟩ := region
      obtain ⟨inOrder, inSource⟩ := bounds (start, stop) rfl
      dsimp only [Option.map_some, Region.moved]
      rw [alike.whole, alike.source, Text.slice_addReturns, Esm.isModuleBlock_addReturns]
      split
      · exact Traced.relates_pure (esmNode_mirrors alike start stop)
      · refine (inlineNodes_relates alike (start, stop) rfl inOrder
          (Nat.le_trans inOrder inSource)).map ?_
        intro children children' tilings
        exact .inline (NodeInfo.mirrors_of_span (by simp) rfl
          (congrArg some (Span.moved_ofNats _ _ _).symm)) (Or.inr (Or.inl rfl)) (by simp)
          tilings.1 tilings.2

theorem cellNode_relates (alike : Fragment.Alike f g) {region : Option Region}
    (bounds : ∀ r ∈ region, r.2 ≤ f.source.length) :
    Relates (Node.Mirrors f.source) (cellNode f region)
      (cellNode g (region.map (Region.moved f.source))) := by
  have bare : Node.Mirrors f.source (.mk { kind := .tableCell } [])
      (.mk { kind := .tableCell } []) :=
    Node.mirrors_of_children (NodeInfo.mirrors_of_span (by simp) rfl rfl) .nil
  cases region with
  | none =>
      exact Traced.relates_pure bare
  | some region =>
      obtain ⟨start, stop⟩ := region
      have inSource : stop ≤ f.source.length := bounds (start, stop) rfl
      rw [Option.map_some, Region.moved, cellNode, cellNode]
      by_cases filled : start < stop
      · rw [if_pos filled, if_pos (Text.moved_lt_iff.mpr filled)]
        refine (inlineNodes_relates alike (start, stop) rfl (Nat.le_of_lt filled)
          (by dsimp only; omega)).map ?_
        intro children children' tilings
        exact .inline (NodeInfo.mirrors_of_span (by simp) rfl
          (congrArg some (Span.moved_ofNats _ _ _).symm)) (Or.inr (Or.inr rfl)) (by simp)
          tilings.1 tilings.2
      · rw [if_neg filled, if_neg (mt Text.moved_lt_iff.mp filled)]
        exact Traced.relates_pure bare

theorem rowNode_relates (alike : Fragment.Alike f g) (within : f.Within) (row : Markdown.TableRow) :
    Relates (Node.Mirrors f.source) (rowNode f row) (rowNode g row) := by
  unfold rowNode
  dsimp only
  refine (show Relates (List.Forall₂ (Node.Mirrors f.source)) _ _ from
    Traced.relates_mapM fun i _ => ?_).map ?_
  · rw [alike.locateCells, List.getElem?_map]
    exact cellNode_relates alike fun r found =>
      within.locateCells_le row.line r (List.mem_of_getElem? found)
  · intro cells cells' below
    exact Node.mirrors_of_children (NodeInfo.mirrors_of_span (by simp) rfl
      (congrArg some (alike.spanOfLines _))) below

theorem codeNode_mirrors (alike : Fragment.Alike f g) (lines : LineRange) (info content : Text) :
    (codeNode f lines info content).Mirrors f.source (codeNode g lines info content) := by
  refine Node.mirrors_of_children (NodeInfo.mirrors_of_span (by simp) ?_
    (congrArg some (alike.spanOfLines _))) .nil
  split <;> rfl

theorem labelNodes_relates (alike : Fragment.Alike f g) (within : f.Within) (line : Nat) :
    Relates (MirrorAll f.source) (labelNodes f line) (labelNodes g line) := by
  unfold labelNodes
  rw [alike.locateLabel?]
  cases found : f.locateLabel? line with
  | none =>
      exact Traced.relates_pure .nil
  | some region =>
      obtain ⟨start, stop⟩ := region
      obtain ⟨filled, opens, closes⟩ := alike.label_inside found
      obtain ⟨-, inSource⟩ := within.locateLabel?_within found
      dsimp only at filled opens closes inSource
      dsimp only [Option.map_some, Region.moved]
      rw [← opens, ← closes]
      refine (inlineNodes_relates alike (start + 1, stop - 1) rfl (Nat.le_of_lt filled)
        (by dsimp only; omega)).map ?_
      intro children children' tilings
      refine .cons (.inline ⟨rfl, rfl, ?_, rfl, fun _ => rfl, by simp, by simp, ?_⟩
        (Or.inr (Or.inl rfl)) (by simp) tilings.1 tilings.2) .nil
      · exact congrArg some (Span.moved_ofNats _ _ _).symm
      · rintro - s ⟨⟩
        have inner :
            (⟨(Span.ofNats start stop).start + 1, (Span.ofNats start stop).stop - 1⟩ : Span) =
              Span.ofNats (start + 1) (stop - 1) := by
          simp only [Span.ofNats, Span.mk.injEq]
          omega
        have positive : 0 < Text.moved f.source stop := by
          have := Text.moved_lt_iff (t := f.source).mpr (show 0 < stop by omega)
          omega
        rw [inner, Span.moved_ofNats, Span.moved_ofNats, opens, closes]
        simp only [Span.ofNats, Span.mk.injEq]
        omega

/-! ### Nodes of blocks -/

/-- Folding the nodes of a fragment gives mirrored nodes. -/
def FoldsIn (f : Fragment) (fold fold' : Folder) : Prop :=
  ∀ nodes nodes',
    Placed f.source.length f.lines.base (f.lines.base + f.lines.text.length) nodes →
    MirrorAll f.source nodes nodes' →
    Relates (MirrorAll f.source) (fold nodes) (fold' nodes')

/-- What is known of two fragments and of the two ways in which the nodes of their blocks are
folded: the fragments are the same but for their breaks, nodes stay where they stand, and the nodes
that come out mirror each other. -/
structure Counterparts (f g : Fragment) (fold fold' : Folder) : Prop where
  alike : Fragment.Alike f g
  within : f.Within
  placed : FoldsPlaced f.source.length (fun _ => True) fold
  folds : FoldsIn f fold fold'

variable {fold fold' : Folder} {nodes : List Node}

theorem placed_of_nodesFrom (placed : NodesFrom f 0 nodes) :
    Placed f.source.length f.lines.base (f.lines.base + f.lines.text.length) nodes :=
  ⟨placed.html.mono (f.lines.base_le_start 0) (Nat.le_refl _), placed.inRange⟩

/-- Siblings that mirror each other stand where folding gives mirrored nodes. -/
theorem Counterparts.foldable (both : Counterparts f g fold fold') {outermost : Bool}
    {blocks : List Block} (sequence : Markdown.Sequence 0 blocks)
    (siblings : Relates (MirrorAll f.source)
      (nodesOfBlocks Fragment.locateInLines f fold outermost blocks)
      (nodesOfBlocks Fragment.locateParagraph g fold' outermost blocks)) :
    Relates (fun nodes nodes' => Relates (MirrorAll f.source) (fold nodes) (fold' nodes'))
      (nodesOfBlocks Fragment.locateInLines f fold outermost blocks)
      (nodesOfBlocks Fragment.locateParagraph g fold' outermost blocks) := by
  have stand := nodesOfBlocks_ends locateInLines_locates both.within both.placed outermost blocks 0
    sequence
  intro events events' nodes nodes' left right
  have facts := (siblings.and_leaves stand) events events' nodes nodes' left right
  exact both.folds nodes nodes' (placed_of_nodesFrom facts.2) facts.1

mutual

theorem blockNodes_relates (both : Counterparts f g fold fold') (outermost : Bool) :
    (block : Block) → block.Orderly →
      Relates (MirrorAll f.source)
        (blockNodes Fragment.locateInLines f fold outermost block)
        (blockNodes Fragment.locateParagraph g fold' outermost block)
  | .frontMatter lines, _ => by
      rw [blockNodes, blockNodes]
      exact Traced.relates_pure (.cons (frontMatterNode_mirrors both.alike lines) .nil)
  | .heading lines inner depth atx content, _ => by
      rw [blockNodes, blockNodes]
      refine (headingNode_relates both.alike both.within lines inner depth atx content).map ?_
      exact fun node node' mirrors => .cons mirrors .nil
  | .paragraph lines tight content, _ => by
      rw [blockNodes, blockNodes]
      refine (paragraphNode_relates both.alike both.within outermost lines content).map ?_
      exact fun node node' mirrors => .cons mirrors .nil
  | .indentedCode lines content, _ => by
      rw [blockNodes, blockNodes]
      exact Traced.relates_pure (.cons (codeNode_mirrors both.alike lines [] content) .nil)
  | .fencedCode lines info content, _ => by
      rw [blockNodes, blockNodes]
      exact Traced.relates_pure (.cons (codeNode_mirrors both.alike lines info content) .nil)
  | .html lines content, _ => by
      rw [blockNodes, blockNodes]
      refine Traced.relates_pure (.cons (Node.mirrors_of_children ?_ .nil) .nil)
      exact NodeInfo.mirrors_of_span (by simp) rfl (congrArg some (both.alike.spanOfLines lines))
  | .thematicBreak lines, _ => by
      rw [blockNodes, blockNodes]
      refine Traced.relates_pure (.cons (Node.mirrors_of_children ?_ .nil) .nil)
      exact NodeInfo.mirrors_of_span (by simp) rfl (congrArg some (both.alike.spanOfLines lines))
  | .blockquote lines children, .mk _ html below => by
      rw [blockNodes, blockNodes]
      refine (nodesOfBlocks_relates both false children below).map ?_
      intro nodes nodes' mirrors
      refine .cons (Node.mirrors_of_children ?_ mirrors) .nil
      exact NodeInfo.mirrors_of_span (by simp) rfl (congrArg some (both.alike.spanOfLines lines))
  | .list lines start items, .mk _ html below => by
      rw [blockNodes, blockNodes]
      refine (nodesOfBlocks_relates both false items below).map ?_
      intro nodes nodes' mirrors
      refine .cons (Node.mirrors_of_children ?_ mirrors) .nil
      exact NodeInfo.mirrors_of_span (by simp) (by cases start <;> rfl)
        (congrArg some (both.alike.spanOfLines lines))
  | .item lines children, .mk _ html below => by
      rw [blockNodes, blockNodes]
      have siblings := nodesOfBlocks_relates both false children below
      refine (both.foldable ⟨html, below⟩ siblings).bind fun nodes nodes' folds => folds.map ?_
      intro folded folded' mirrors
      refine .cons (Node.mirrors_of_children ?_ mirrors) .nil
      exact NodeInfo.mirrors_of_span (by simp) rfl (congrArg some (both.alike.spanOfLines lines))
  | .table lines alignments header rows, _ => by
      rw [blockNodes, blockNodes]
      refine (Traced.relates_mapM fun row _ => rowNode_relates both.alike both.within row).map ?_
      intro nodes nodes' mirrors
      refine .cons (Node.mirrors_of_children ?_ mirrors) .nil
      exact NodeInfo.mirrors_of_span (by simp) rfl (congrArg some (both.alike.spanOfLines lines))
  | .directive lines info children, .mk _ html below => by
      rw [blockNodes, blockNodes]
      have label := labelNodes_relates both.alike both.within lines.first
      refine label.bind fun label label' labels => ?_
      have siblings := nodesOfBlocks_relates both false children below
      refine (both.foldable ⟨html, below⟩ siblings).bind fun nodes nodes' folds => folds.map ?_
      intro folded folded' mirrors
      refine .cons (Node.mirrors_of_children ?_ (List.rel_append labels mirrors)) .nil
      exact NodeInfo.mirrors_of_span (by simp) rfl (congrArg some (both.alike.directiveSpan lines))
  | .definition label url title, _ => by
      rw [blockNodes, blockNodes]
      exact Traced.relates_pure .nil

theorem nodesOfBlocks_relates (both : Counterparts f g fold fold') (outermost : Bool) :
    (blocks : List Block) → (∀ block ∈ blocks, block.Orderly) →
      Relates (MirrorAll f.source)
        (nodesOfBlocks Fragment.locateInLines f fold outermost blocks)
        (nodesOfBlocks Fragment.locateParagraph g fold' outermost blocks)
  | [], _ => by
      rw [nodesOfBlocks, nodesOfBlocks]
      exact Traced.relates_pure .nil
  | block :: rest, orderly => by
      obtain ⟨first, others⟩ := List.forall_mem_cons.mp orderly
      rw [nodesOfBlocks, nodesOfBlocks]
      refine (blockNodes_relates both outermost block first).bind ?_
      intro nodes nodes' mirrors
      refine (nodesOfBlocks_relates both outermost rest others).map ?_
      exact fun further further' more => List.rel_append mirrors more

end

/-- Fragments that are alike become mirrored nodes. -/
theorem fragmentNodes_relates (both : Counterparts f g fold fold') :
    Relates (MirrorAll f.source) (fragmentNodes Fragment.locateInLines f fold)
      (fragmentNodes Fragment.locateParagraph g fold') := by
  unfold fragmentNodes
  rw [both.alike.blocks]
  have read : Relates (fun blocks blocks' => blocks' = blocks ∧ Markdown.Sequence 0 blocks)
      (Traced.ofExcept ((Markdown.blocks f.text).mapError ParseError.ofBlocks))
      (Traced.ofExcept ((Markdown.blocks f.text).mapError ParseError.ofBlocks)) := by
    have sequence := Markdown.blocks_sequence f.text
    apply Traced.relates_ofExcept
    intro blocks blocks' given given'
    cases found : Markdown.blocks f.text with
    | error e =>
        rw [found] at given
        cases given
    | ok blocks =>
        rw [found] at given given' sequence
        cases given
        cases given'
        exact ⟨rfl, sequence⟩
  refine read.bind ?_
  rintro _ blocks ⟨rfl, sequence⟩
  have siblings := nodesOfBlocks_relates both true blocks sequence.orderly
  exact (both.foldable sequence siblings).bind fun nodes nodes' folds => folds

/-! ### Trees -/

variable {source : Text}

/-- Elements are found alike as long as neither budget runs out, which it cannot when it exceeds the
length of the text in which raw HTML stands. -/
theorem foldElements_relates (clean : '\r' ∉ source) (budget budget' : Nat)
    {lower upper : Nat} {nodes nodes' : List Node} (enough : upper - lower < budget)
    (enough' : upper - lower < budget') (within : upper ≤ source.length)
    (placed : Placed source.length lower upper nodes) (mirrors : MirrorAll source nodes nodes') :
    Relates (MirrorAll source) (foldElements Fragment.locateInLines source budget nodes)
      (foldElements Fragment.locateParagraph (Text.addReturns source) budget' nodes') := by
  induction budget generalizing budget' lower upper nodes nodes' with
  | zero =>
      exact absurd enough (Nat.not_lt_zero _)
  | succ budget hypothesis =>
      obtain ⟨budget', rfl⟩ := Nat.exists_eq_succ_of_ne_zero (Nat.ne_zero_of_lt enough')
      -- Content is read from behind an opening tag on, so the regions shrink with the budgets.
      have folds : FoldsMirrored source lower upper
          (foldElements Fragment.locateInLines source budget)
          (foldElements Fragment.locateParagraph (Text.addReturns source) budget') := by
        intro start stop inner inner' after before innerPlaced innerMirrors
        have inOrder := innerPlaced.html.le
        exact hypothesis budget' (by omega) (by omega) (by omega) innerPlaced innerMirrors
      rw [foldElements, foldElements]
      refine foldFrom_relates ?_ folds within (Nat.le_refl _) 0 placed mirrors
      intro start stop after inOrder before
      dsimp only
      rw [Text.slice_addReturns, Text.isBlankText_addReturns]
      split
      · exact Traced.relates_pure ⟨.nil, inOrder, by simp⟩
      · have size : start + (Text.slice source start stop).length = stop := by
          rw [Text.length_slice]
          omega
        have alike := Fragment.between_alike clean start stop false
        have fits : (Fragment.between source start stop false).Within :=
          Fragment.between_within (by omega) stop false
        have inFragment : FoldsIn (Fragment.between source start stop false)
            (foldElements Fragment.locateInLines source budget)
            (foldElements Fragment.locateParagraph (Text.addReturns source) budget') := by
          intro inner inner' innerPlaced innerMirrors
          exact folds start stop inner inner' after before (size ▸ innerPlaced) innerMirrors
        have stay := foldElements_folds locateInLines_locates trivial source budget
        have stand := fragmentNodes_ends locateInLines_locates fits stay trivial
        exact (fragmentNodes_relates ⟨alike, fits, stay, inFragment⟩).and_leaves
          (stand.imp fun nodes placed => size ▸ placed)

theorem kind_of_parse {root : Node} (parsed : (parse source).outcome.1 = .ok root) :
    root.kind = .root := by
  have leaves : Leaves (fun root => root.kind = .root) (parse source) := by
    unfold parse parseWith
    exact Traced.ends_any.bind fun _ _ => Traced.ends_any.map fun _ _ => rfl
  have settled : Settles (fun root => Node.kind root = .root) (fun _ => True)
      (parse source).outcome.1 := leaves []
  rw [parsed] at settled
  exact settled

/-- Where a text without carriage returns has a tree, and none of its paragraphs overshoots its
lines, the tree of the text with carriage returns mirrors it, if there is one. -/
theorem parse_mirrors {root root' : Node} (clean : '\r' ∉ source) (inLines : ¬ Overshoots source)
    (parsed : (parse source).outcome.1 = .ok root)
    (parsed' : (parse (Text.addReturns source)).outcome.1 = .ok root') :
    root.Mirrors source root' := by
  have alike : Fragment.Alike (Fragment.between source 0 source.length true)
      (Fragment.between (Text.addReturns source) 0 (Text.addReturns source).length true) := by
    rw [← Text.moved_length]
    exact Fragment.between_alike clean 0 source.length true
  have fits : (Fragment.between source 0 source.length true).Within :=
    Fragment.between_within (Nat.zero_le _) source.length true
  have size : 0 + (Text.slice source 0 source.length).length = source.length := by
    rw [Text.length_slice]
    omega
  have longer : source.length ≤ (Text.addReturns source).length := by
    rw [Text.length_addReturns]
    exact Nat.le_add_right _ _
  have folds : FoldsIn (Fragment.between source 0 source.length true)
      (foldElements Fragment.locateInLines source (source.length + 1))
      (foldElements Fragment.locateParagraph (Text.addReturns source)
        ((Text.addReturns source).length + 1)) := by
    intro nodes nodes' placed mirrors
    exact foldElements_relates clean _ _ (by omega) (by omega) (Nat.le_refl _) (size ▸ placed)
      mirrors
  have stay := foldElements_folds locateInLines_locates trivial source (source.length + 1)
  have relates : Relates (Node.Mirrors source) (parseWith Fragment.locateInLines source)
      (parse (Text.addReturns source)) := by
    unfold parse parseWith
    have both : Counterparts _ _ _ _ := ⟨alike, fits, stay, folds⟩
    refine (fragmentNodes_relates both).bind fun children children' below => ?_
    refine (Traced.relates_any _ _).map fun _ _ _ => Node.mirrors_of_children ?_ below
    refine NodeInfo.mirrors_of_span (by simp) rfl ?_
    by_cases empty : source = []
    · subst empty
      rfl
    · have filled : Text.addReturns source ≠ [] := mt Text.addReturns_eq_nil_iff.mp empty
      rw [if_neg (mt List.isEmpty_iff.mp empty), if_neg (mt List.isEmpty_iff.mp filled),
        ← Text.moved_length]
      exact congrArg some (Span.moved_ofNats source 0 source.length).symm
  rcases parse_allows_locateInLines source [] with same | ⟨refused, -⟩
  · exact relates [] [] root root' ((congrArg Prod.fst same).symm.trans parsed) parsed'
  · exact absurd refused inLines

end MdxLocalization.Document
