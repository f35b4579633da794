import MdxLocalization.Document.Parsing
import MdxLocalization.Proofs.ElementNesting
import MdxLocalization.Proofs.FragmentNesting
import MdxLocalization.Proofs.ReadingOrder

/-!
# Nodes of blocks nest

The blocks of a text nest by their lines. Their nodes nest by offsets as long as the offsets are
those of the lines, which can go wrong in four ways. A directive takes the line behind its content
even when no mark closes it there. The content of a paragraph, or of an underlined heading, may be
located outside its lines, since tabs and dropped characters shift it. A line that the rules for
blocks do not take as blank may be blank when the end of a block is trimmed. And front matter, whose
offsets are not trimmed at all, may stand inside another block.

Blocks are tidy when none of this happens. For tidy blocks, what is read becomes siblings in their
place, each of them with its children inside.
-/

namespace MdxLocalization.Document

open Markdown (Block LineRange)
open Traced (Leaves)

/-! ### Tidy blocks -/

/-- The first line of the first block that is shown. -/
def firstLine? (blocks : List Block) : Option Nat :=
  (blocks.findSome? Block.lines?).map LineRange.first

namespace Fragment

/-- A block starts with a line that is not blank. -/
def begins (f : Fragment) (lines : LineRange) : Bool := !f.lines.isBlank lines.first

/-- The content of a paragraph is located in its lines. -/
def holdsParagraph (f : Fragment) (lines : LineRange) (content : Text) : Bool :=
  match (f.locateParagraph lines content : Traced ParseError (Option Region)).outcome.1 with
  | .ok (some region) => f.Holds lines region
  | _ => true

mutual

/-- The offsets of a block are those of its lines. `limit` is the line up to which the block may
reach, and `top` tells whether no other block is around it. -/
def tidyBlock (f : Fragment) (top : Bool) (limit : Option Nat) : Block → Bool
  | .frontMatter _ => top
  | .heading lines inner _ atx content =>
    f.begins lines && (atx || f.holdsParagraph inner content)
  | .paragraph lines _ content => f.begins lines && f.holdsParagraph lines content
  | .table lines _ _ rows =>
    f.begins lines && rows.all fun row => f.begins ⟨row.line, row.line + 1⟩
  | .blockquote lines children => f.begins lines && f.tidyBlocks (some lines.last) children
  | .list lines _ items => f.begins lines && f.tidyBlocks (some lines.last) items
  | .item lines children => f.begins lines && f.tidyBlocks (some lines.last) children
  | .directive lines _ children =>
    let taken := f.withClosing lines
    f.begins lines && limit.all (taken.last ≤ ·) && f.tidyBlocks (some taken.last) children
  | .indentedCode lines _ | .fencedCode lines _ _ | .html lines _ | .thematicBreak lines =>
    f.begins lines
  | .definition _ _ _ => true

/-- Blocks that follow one another are tidy; each may reach up to the next one. -/
def tidyBlocks (f : Fragment) (limit : Option Nat) : List Block → Bool
  | [] => true
  | block :: rest =>
    f.tidyBlock limit.isNone ((firstLine? rest).or limit) block && f.tidyBlocks limit rest

end

variable {f : Fragment} {fold : Folder} {lower upper line : Nat} {limit : Option Nat}

theorem locateParagraph_outcome (f : Fragment) (lines : LineRange) (content : Text)
    (events : List LogEvent) :
    ((f.locateParagraph lines content : Traced ParseError (Option Region)) events).1 =
      (f.locateParagraph lines content : Traced ParseError (Option Region)).outcome.1 := by
  unfold locateParagraph
  split
  · rfl
  · dsimp only
    split <;> rfl

theorem locateParagraph_holds {lines : LineRange} {content : Text}
    (holds : f.holdsParagraph lines content = true) :
    Leaves (fun region => ∀ r ∈ region, f.Holds lines r)
      (f.locateParagraph lines content : Traced ParseError (Option Region)) := by
  intro events
  rw [f.locateParagraph_outcome lines content events]
  unfold holdsParagraph at holds
  split at holds
  · rename_i region located
    rw [located]
    intro r same
    cases same
    exact of_decide_eq_true holds
  · rename_i other
    cases outcome : (f.locateParagraph lines content : Traced ParseError _).outcome.1 with
    | error e =>
        trivial
    | ok found =>
        cases found with
        | none =>
            simp [Settles]
        | some region =>
            exact absurd outcome (other region)

theorem begins_eq {lines : LineRange} (begins : f.begins lines = true) :
    f.lines.isBlank lines.first = false := by
  simpa [Fragment.begins] using begins

end Fragment

/-! ### Places -/

variable {f : Fragment} {fold : Folder} {lower upper line : Nat} {limit : Option Nat}

/-- The lines that the node of a block takes up; a definition has no node. -/
def Fragment.taken? (f : Fragment) : Block → Option LineRange
  | .directive lines _ _ => some (f.withClosing lines)
  | block => block.lines?

/-- The region in which the node of a block stands. -/
def Fragment.place? (f : Fragment) : Block → Option Region
  | .frontMatter lines => some (f.lines.start lines.first, f.lines.stop (lines.last - 1))
  | block => (f.taken? block).map fun lines => f.lines.extent lines.first lines.last

/-- What a block becomes stands in its place, or else nothing is there. -/
def InPlace (f : Fragment) (block : Block) (nodes : List Node) : Prop :=
  match f.place? block with
  | none => nodes = []
  | some region => Ready f.source region.1 region.2 nodes

theorem Fragment.Within.extent_le (within : f.Within) (first last : Nat) :
    (f.lines.extent first last).2 ≤ f.source.length :=
  Nat.le_trans (within.ordered.extent_within first last).2.2 within.inSource

/-- A node that is no raw HTML, with what it holds in its place. -/
theorem ready_single {source : Text} {first last start stop : Nat} {info : NodeInfo}
    {children : List Node} (placed : info.span = some (Span.ofNats start stop))
    (folded : htmlRegion? (.mk info children) = none) (proper : start ≤ stop)
    (content : Ready source first last children) (inside : start ≤ first ∧ last ≤ stop) :
    Ready source start stop [.mk info children] :=
  ready_cons placed folded proper ⟨Nat.le_refl _, Nat.le_refl _⟩ content inside
    (ready_nil source stop stop)

theorem ready_absent {source : Text} {info : NodeInfo} (absent : info.span = none)
    (folded : htmlRegion? (.mk info []) = none) : Ready source lower upper [.mk info []] where
  aligned := aligned_singleton (Node.between_of_none absent)
  nests := List.forall_mem_singleton.mpr (Node.nests_of_none absent .nil (by simp))
  unclosed := by simp [folded]

/-! ### Nodes without blocks in them -/

theorem htmlRegion?_of_piece {node : Node} (piece : Inline.Piece node) :
    htmlRegion? node = none := by
  cases piece with
  | @leaf info kind =>
      have other : info.kind ≠ .html := by
        rintro same
        simp [same] at kind
      unfold htmlRegion? Node.kind Node.info
      split
      · rename_i isHtml _
        exact absurd isHtml other
      · rfl
  | link kind placed inside tiles below =>
      unfold htmlRegion? Node.kind Node.info
      simp [kind]

theorem inlineNodes_ready {region : Region} (proper : region.1 ≤ region.2)
    (within : region.2 ≤ f.source.length) :
    Leaves (Ready f.source region.1 region.2) (inlineNodes f region) := by
  apply Traced.ends_ofExcept
  cases scanned : Inline.scan f.source region.1 region.2 with
  | error e =>
      trivial
  | ok nodes =>
      have tiling := Inline.scan_tiling proper (Nat.le_trans proper within) scanned
      refine ⟨tiling.tiles.aligned, tiling.nests, fun node member => ?_⟩
      simp [htmlRegion?_of_piece (tiling.pieces node member)]

theorem inlineNodes_holds (within : f.Within) {lines : LineRange} {region : Region}
    (holds : f.Holds lines region) :
    Leaves (Ready f.source (f.lines.extent lines.first lines.last).1
      (f.lines.extent lines.first lines.last).2) (inlineNodes f region) :=
  (inlineNodes_ready holds.2.1 (Nat.le_trans holds.2.2 (within.extent_le _ _))).imp
    fun _ ready => ready.mono holds.1 holds.2.2

/-- A node that covers whole lines, with what it holds in them. -/
theorem ready_lines (within : f.Within) (lines : LineRange) {info : NodeInfo}
    {children : List Node} (placed : info.span = some (f.spanOfLines lines))
    (folded : htmlRegion? (.mk info children) = none)
    (content : Ready f.source (f.lines.extent lines.first lines.last).1
      (f.lines.extent lines.first lines.last).2 children) :
    Ready f.source (f.lines.extent lines.first lines.last).1
      (f.lines.extent lines.first lines.last).2 [.mk info children] :=
  ready_single placed folded (within.ordered.extent_within lines.first lines.last).2.1 content
    ⟨Nat.le_refl _, Nat.le_refl _⟩

theorem frontMatterNode_ready (within : f.Within) {lines : LineRange}
    (filled : lines.first < lines.last) :
    Ready f.source (f.lines.start lines.first) (f.lines.stop (lines.last - 1))
      [frontMatterNode f lines] := by
  have starts := within.ordered.start_mono (show lines.first ≤ lines.last - 1 by omega)
  have stops := within.ordered.stop_le (lines.last - 1)
  exact ready_single rfl rfl (Nat.le_trans starts stops.1) (ready_nil _ _ _)
    ⟨Nat.le_refl _, Nat.le_refl _⟩

theorem headingNode_ready (within : f.Within) {lines inner : LineRange} {depth : Nat} {atx : Bool}
    {content : Text} (filled : lines.first < lines.last)
    (consistent : (Block.heading lines inner depth atx content).Consistent)
    (begins : f.begins lines = true)
    (located : (atx || f.holdsParagraph inner content) = true) :
    Leaves (fun node => Ready f.source (f.lines.extent lines.first lines.last).1
        (f.lines.extent lines.first lines.last).2 [node])
      (headingNode Fragment.locateParagraph f lines inner depth atx content) := by
  obtain ⟨sameFirst, innerFilled, innerLast, trimmed⟩ := consistent
  have region : Leaves (fun region => ∀ r ∈ region, f.Holds lines r)
      (headingRegion Fragment.locateParagraph f lines inner atx content) := by
    unfold headingRegion
    cases atx with
    | true =>
        exact Traced.ends_pure fun r found =>
          within.locateHeading?_holds filled (trimmed rfl) found
    | false =>
        have nested := within.ordered.extent_nests
          (by rw [sameFirst]; exact Fragment.begins_eq begins) (Nat.le_of_eq sameFirst.symm)
          innerFilled innerLast
        refine (Fragment.locateParagraph_holds located).imp fun region holds r found => ?_
        obtain ⟨after, proper, before⟩ := holds r found
        exact ⟨Nat.le_trans nested.1 after, proper, Nat.le_trans before nested.2⟩
  unfold headingNode
  dsimp only
  apply region.bind
  intro found holds
  cases found with
  | none =>
      exact Traced.ends_pure (ready_lines within lines rfl rfl (ready_nil _ _ _))
  | some region =>
      apply (inlineNodes_holds within (holds region rfl)).map
      intro children content
      exact ready_lines within lines rfl rfl content

theorem esmNode_ready {region : Region} (proper : region.1 ≤ region.2) :
    Ready f.source region.1 region.2 [esmNode f region.1 region.2] := by
  obtain ⟨inOrder, between⟩ :=
    Esm.importsFrom_inOrder region.1 0 false (Text.slice f.source region.1 region.2)
  have size := Text.length_slice f.source region.1 region.2
  refine ready_single rfl rfl proper ⟨⟨?_, ?_⟩, ?_, ?_⟩ ⟨Nat.le_refl region.1, Nat.le_refl region.2⟩
  · refine List.forall_mem_map.mpr fun found member => ?_
    obtain ⟨first, last, same, after, inOrder, before⟩ := between found member
    refine Node.between_of_span (congrArg some same) (by omega) inOrder ?_
    omega
  · refine List.pairwise_map.mpr (inOrder.imp fun {a b} apart s first t second => ?_)
    cases first
    cases second
    exact apart
  · refine List.forall_mem_map.mpr fun found member => ?_
    obtain ⟨first, last, same, after, inOrder, before⟩ := between found member
    exact Node.nests_of_span (congrArg some same) inOrder (aligned_nil _ _) (by simp)
  · exact List.forall_mem_map.mpr fun found member => by simp [htmlRegion?, Node.kind, Node.info]

theorem paragraphNode_ready (within : f.Within) (outermost : Bool) {lines : LineRange}
    {content : Text} (located : f.holdsParagraph lines content = true) :
    Leaves (fun node => Ready f.source (f.lines.extent lines.first lines.last).1
        (f.lines.extent lines.first lines.last).2 [node])
      (paragraphNode Fragment.locateParagraph f outermost lines content) := by
  unfold paragraphNode
  apply (Fragment.locateParagraph_holds located).bind
  intro found holds
  cases found with
  | none =>
      exact Traced.ends_pure (ready_absent rfl rfl)
  | some region =>
      obtain ⟨start, stop⟩ := region
      obtain ⟨after, proper, before⟩ := holds (start, stop) rfl
      have inSource : stop ≤ f.source.length := Nat.le_trans before (within.extent_le _ _)
      dsimp only
      split
      · exact Traced.ends_pure ((esmNode_ready proper).mono after before)
      · apply (inlineNodes_ready proper inSource).map
        intro children content
        have own : Ready f.source start stop [.mk
            { kind := .paragraph, span := some (Span.ofNats start stop) } children] :=
          ready_single rfl rfl proper content ⟨Nat.le_refl _, Nat.le_refl _⟩
        exact own.mono after before

/-- What becomes of a cell: a node that nests, and that has a span only if the cell has content. -/
structure CellOf (region : Option Region) (node : Node) : Prop where
  nests : node.Nests
  span : ∀ s ∈ node.span, ∃ r ∈ region, s = Span.ofNats r.1 r.2 ∧ r.1 < r.2

theorem cellNode_leaves {region : Option Region} (within : ∀ r ∈ region, r.2 ≤ f.source.length) :
    Leaves (CellOf region) (cellNode f region) := by
  have bare : CellOf region (.mk { kind := .tableCell } []) :=
    ⟨Node.nests_of_none rfl .nil (by simp), by simp [Node.span, Node.info]⟩
  cases region with
  | none =>
      exact Traced.ends_pure bare
  | some region =>
      obtain ⟨start, stop⟩ := region
      rw [cellNode]
      split
      · rename_i filled
        apply (inlineNodes_ready (Nat.le_of_lt filled) (within (start, stop) rfl)).map
        intro children content
        refine ⟨Node.nests_of_span rfl (Nat.le_of_lt filled) content.aligned content.nests, ?_⟩
        intro s same
        cases same
        exact ⟨(start, stop), rfl, rfl, filled⟩
      · exact Traced.ends_pure bare

/-- What becomes of a row: a node that nests and covers a line. -/
structure RowOf (f : Fragment) (row : Markdown.TableRow) (node : Node) : Prop where
  nests : node.Nests
  span : node.span = some (f.spanOfLines ⟨row.line, row.line + 1⟩)
  folded : htmlRegion? node = none

theorem rowNode_leaves (within : f.Within) (row : Markdown.TableRow) :
    Leaves (RowOf f row) (rowNode f row) := by
  have proper := (within.ordered.extent_within row.line (row.line + 1)).2.1
  have cell (i : Nat) : Leaves (CellOf (f.locateCells row.line)[i]?)
      (cellNode f (f.locateCells row.line)[i]?) :=
    cellNode_leaves fun r found =>
      within.locateCells_le row.line r (List.mem_of_getElem? found)
  unfold rowNode
  dsimp only
  apply (Traced.ends_mapM_forall₂ fun i _ => cell i).map
  intro cells related
  refine ⟨Node.nests_of_span rfl proper ⟨?_, ?_⟩ ?_, rfl, rfl⟩
  · intro node member s placed
    obtain ⟨i, -, of⟩ := exists_of_forall₂_mem related member
    obtain ⟨r, found, rfl, content⟩ := of.span s placed
    have holds : f.Holds ⟨row.line, row.line + 1⟩ r :=
      within.locateCells_holds (Nat.lt_succ_self row.line) (List.mem_of_getElem? found) content
    exact ⟨r.1, r.2, rfl, holds⟩
  · refine pairwise_before_of_forall₂ related List.pairwise_lt_range ?_
    intro i j node other before first second s isFirst t isSecond
    obtain ⟨r, found, rfl, -⟩ := first.span s isFirst
    obtain ⟨r', found', rfl, -⟩ := second.span t isSecond
    obtain ⟨inside, rfl⟩ := List.getElem?_eq_some_iff.mp found
    obtain ⟨inside', rfl⟩ := List.getElem?_eq_some_iff.mp found'
    exact Int.ofNat_le.mpr (List.pairwise_iff_getElem.mp (f.locateCells_inOrder row.line) i j
      inside inside' before)
  · intro node member
    obtain ⟨i, -, of⟩ := exists_of_forall₂_mem related member
    exact of.nests

theorem tableNode_leaves (within : f.Within) {lines : LineRange}
    {alignments : List Markdown.Alignment} {header : Markdown.TableRow}
    {rows : List Markdown.TableRow} (filled : lines.first < lines.last)
    (consistent : (Block.table lines alignments header rows).Consistent)
    (begins : f.begins lines = true)
    (rowsBegin : ∀ row ∈ rows, f.begins ⟨row.line, row.line + 1⟩ = true) :
    Leaves (fun nodes => Ready f.source (f.lines.extent lines.first lines.last).1
        (f.lines.extent lines.first lines.last).2
        [.mk { kind := .table, span := some (f.spanOfLines lines) } nodes])
      ((header :: rows).mapM (rowNode f)) := by
  obtain ⟨headerLine, inOrder, bounds⟩ := consistent
  have rowsInOrder : (header :: rows).Pairwise (fun a b => a.line < b.line) :=
    List.pairwise_cons.mpr ⟨fun row member => headerLine ▸ (bounds row member).1, inOrder⟩
  have rowBounds : ∀ row ∈ header :: rows,
      (f.lines.extent lines.first lines.last).1 ≤ (f.lines.extent row.line (row.line + 1)).1 ∧
        (f.lines.extent row.line (row.line + 1)).2 ≤
          (f.lines.extent lines.first lines.last).2 := by
    refine List.forall_mem_cons.mpr ⟨?_, fun row member => ?_⟩
    · rw [headerLine]
      exact within.ordered.extent_nests (Fragment.begins_eq begins) (Nat.le_refl _)
        (Nat.lt_succ_self _) filled
    · exact within.ordered.extent_nests (Fragment.begins_eq (rowsBegin row member))
        (Nat.le_of_lt (bounds row member).1) (Nat.lt_succ_self _) (bounds row member).2
  refine (Traced.ends_mapM_forall₂ fun row _ => rowNode_leaves within row).imp ?_
  intro nodes related
  refine ready_lines within lines rfl rfl ⟨⟨?_, ?_⟩, ?_, ?_⟩
  · intro node member
    obtain ⟨row, isRow, of⟩ := exists_of_forall₂_mem related member
    have own := within.ordered.extent_within row.line (row.line + 1)
    exact Node.between_of_span of.span (rowBounds row isRow).1 own.2.1 (rowBounds row isRow).2
  · refine pairwise_before_of_forall₂ related rowsInOrder ?_
    intro a b node other before first second s isFirst t isSecond
    rw [first.span] at isFirst
    rw [second.span] at isSecond
    cases isFirst
    cases isSecond
    have stops := within.ordered.extent_le_start (Nat.lt_succ_self a.line)
    have starts := (within.ordered.extent_within b.line (b.line + 1)).1
    have between := within.ordered.start_mono (Nat.succ_le_of_lt before)
    exact Int.ofNat_le.mpr (Nat.le_trans stops (Nat.le_trans between starts))
  · intro node member
    obtain ⟨row, -, of⟩ := exists_of_forall₂_mem related member
    exact of.nests
  · intro node member
    obtain ⟨row, -, of⟩ := exists_of_forall₂_mem related member
    simp [of.folded]

theorem labelNodes_leaves (within : f.Within) {lines : LineRange}
    (filled : lines.first < lines.last) :
    Leaves (fun nodes => ∃ middle, (f.lines.extent lines.first lines.last).1 ≤ middle ∧
        middle ≤ (f.lines.extent lines.first lines.last).2 ∧
        middle ≤ f.lines.start (lines.first + 1) ∧
        Ready f.source (f.lines.extent lines.first lines.last).1 middle nodes)
      (labelNodes f lines.first) := by
  have extent := within.ordered.extent_within lines.first lines.last
  have next := within.ordered.stop_le_start (Nat.lt_succ_self lines.first)
  unfold labelNodes
  split
  · refine Traced.ends_pure ⟨_, Nat.le_refl _, extent.2.1, ?_, ready_nil _ _ _⟩
    have indent := Text.countWhile_le_length Text.isIndent (f.lines.line lines.first)
    have inLine := within.ordered.start_add_length_le_stop lines.first
    refine Nat.le_trans ?_ next
    simp only [SourceLines.extent]
    omega
  · rename_i start stop found
    obtain ⟨⟨after, proper, before⟩, inner, inLine⟩ := within.locateLabel?_holds filled found
    dsimp only at after proper before inner inLine
    have inSource := within.extent_le lines.first lines.last
    have innerWithin : stop - 1 ≤ f.source.length := by omega
    apply (inlineNodes_ready inner innerWithin).map
    intro children content
    refine ⟨stop, by omega, before, Nat.le_trans inLine next, ?_⟩
    exact (ready_single rfl rfl proper content ⟨Nat.le_succ start, Nat.sub_le stop 1⟩).mono after
      (Nat.le_refl _)

/-! ### Nodes of blocks -/

theorem firstLine?_cons_none {block : Block} {rest : List Block} (hidden : block.lines? = none) :
    firstLine? (block :: rest) = firstLine? rest := by
  rw [firstLine?, List.findSome?_cons, hidden, firstLine?]

theorem firstLine?_cons_some {block : Block} {rest : List Block} {lines : LineRange}
    (shown : block.lines? = some lines) : firstLine? (block :: rest) = some lines.first := by
  rw [firstLine?, List.findSome?_cons, shown]
  rfl

theorem firstLine?_bounds {blocks : List Block} (between : Markdown.Between lower upper blocks) :
    ∀ n ∈ firstLine? blocks, lower ≤ n ∧ n < upper := by
  induction blocks generalizing lower with
  | nil =>
      simp [firstLine?]
  | cons block rest hypothesis =>
      intro n found
      cases shown : block.lines? with
      | none =>
          rw [firstLine?_cons_none shown] at found
          exact hypothesis ((Markdown.between_cons_none shown).mp between) n found
      | some lines =>
          obtain ⟨after, filled, others⟩ := (Markdown.between_cons_some shown).mp between
          rw [firstLine?_cons_some shown, Option.mem_some_iff] at found
          have le := others.le
          omega

/-- The next block, or else the line that limits them all, comes no earlier than the blocks. -/
theorem le_firstLine?_or {blocks : List Block} (between : Markdown.Between lower upper blocks)
    (room : ∀ n ∈ limit, upper ≤ n) : ∀ n ∈ (firstLine? blocks).or limit, lower ≤ n := by
  intro n isNext
  cases found : firstLine? blocks with
  | none =>
      rw [found, Option.none_or] at isNext
      exact Nat.le_trans between.le (room n isNext)
  | some m =>
      rw [found, Option.some_or, Option.mem_some_iff] at isNext
      exact isNext ▸ (firstLine?_bounds between m found).1

theorem le_limit {blocks : List Block} {n : Nat} (between : Markdown.Between lower upper blocks)
    (room : ∀ m ∈ limit, upper ≤ m) (before : ∀ m ∈ (firstLine? blocks).or limit, n ≤ m) :
    ∀ m ∈ limit, n ≤ m := by
  intro m isLimit
  cases found : firstLine? blocks with
  | none =>
      rw [found, Option.none_or] at before
      exact before m isLimit
  | some first =>
      rw [found, Option.some_or] at before
      have le := before first rfl
      have less := (firstLine?_bounds between first found).2
      have last := room m isLimit
      omega

/-- A tidy block takes up lines from its first one on, and stops before what limits it. -/
theorem taken?_bounds {top : Bool} {block : Block} {lines : LineRange} {next : Option Nat}
    (shown : block.lines? = some lines) (limited : ∀ n ∈ next, lines.last ≤ n)
    (tidy : f.tidyBlock top next block = true) :
    ∃ taken, f.taken? block = some taken ∧ taken.first = lines.first ∧
      lines.last ≤ taken.last ∧ ∀ n ∈ next, taken.last ≤ n := by
  cases block with
  | directive inner info children =>
      cases shown
      refine ⟨f.withClosing lines, rfl, Fragment.withClosing_first lines,
        Fragment.le_withClosing_last lines, fun n isLimit => ?_⟩
      rw [Fragment.tidyBlock] at tidy
      simp only [Bool.and_eq_true] at tidy
      rw [Option.mem_def.mp isLimit, Option.all_some, decide_eq_true_eq] at tidy
      exact tidy.1.2
  | definition label url title =>
      cases shown
  | _ =>
      exact ⟨lines, shown, rfl, Nat.le_refl _, limited⟩

theorem begins_of_tidyBlock {top : Bool} {block : Block} {lines : LineRange} {next : Option Nat}
    (other : ∀ lines, block ≠ .frontMatter lines) (shown : block.lines? = some lines)
    (tidy : f.tidyBlock top next block = true) : f.begins lines = true := by
  cases block with
  | frontMatter inner =>
      exact absurd rfl (other inner)
  | definition label url title =>
      cases shown
  | _ =>
      cases shown
      simp only [Fragment.tidyBlock, Bool.and_eq_true] at tidy
      first
        | exact tidy
        | exact tidy.1
        | exact tidy.1.1

theorem place?_eq {block : Block} {taken : LineRange}
    (other : ∀ lines, block ≠ .frontMatter lines) (takes : f.taken? block = some taken) :
    f.place? block = some (f.lines.extent taken.first taken.last) := by
  unfold Fragment.place?
  split
  · exact absurd rfl (other _)
  · rw [takes]
    rfl

theorem place?_bounds (within : f.Within) {block : Block} {taken : LineRange}
    (takes : f.taken? block = some taken) (filled : taken.first < taken.last) :
    ∃ region, f.place? block = some region ∧ f.lines.start taken.first ≤ region.1 ∧
      region.2 ≤ f.lines.start taken.last := by
  by_cases other : ∀ lines, block ≠ .frontMatter lines
  · exact ⟨_, place?_eq other takes,
      (within.ordered.extent_within taken.first taken.last).1,
      within.ordered.extent_le_start filled⟩
  · obtain ⟨lines, same⟩ := Classical.not_forall.mp other
    rw [Classical.not_not.mp same] at takes ⊢
    cases takes
    have before : taken.last - 1 < taken.last := by omega
    exact ⟨_, rfl, Nat.le_refl _, within.ordered.stop_le_start before⟩

/-- The nodes of siblings from a line on. When the siblings stand in a block, the extent of the
block holds them. -/
structure SiblingsIn (f : Fragment) (limit : Option Nat) (line : Nat) (nodes : List Node) :
    Prop where
  ready : Ready f.source (f.lines.start line) (f.lines.base + f.lines.text.length) nodes
  inside : ∀ outer : LineRange, limit = some outer.last → outer.first ≤ line →
    ∀ node ∈ nodes, node.Between (f.lines.extent outer.first outer.last).1
      (f.lines.extent outer.first outer.last).2

theorem SiblingsIn.ready_inside {outer : LineRange} {nodes : List Node}
    (siblings : SiblingsIn f (some outer.last) line nodes) (after : outer.first ≤ line) :
    Ready f.source (f.lines.extent outer.first outer.last).1
      (f.lines.extent outer.first outer.last).2 nodes :=
  ⟨⟨siblings.inside outer rfl after, siblings.ready.aligned.inOrder⟩, siblings.ready.nests,
    siblings.ready.unclosed⟩

/-- Behind a tidy block there is a line from which the blocks after it go on, and the nodes of these
go with the nodes of the block. -/
theorem exists_line_after (within : f.Within) {block : Block} {rest : List Block}
    (between : Markdown.Between lower upper (block :: rest)) (room : ∀ n ∈ limit, upper ≤ n)
    (tidy : f.tidyBlock limit.isNone ((firstLine? rest).or limit) block = true)
    (starts : ∀ n ∈ firstLine? (block :: rest), line ≤ n) :
    ∃ next lower', Markdown.Between lower' upper rest ∧ (∀ n ∈ firstLine? rest, next ≤ n) ∧
      ∀ nodes others, InPlace f block nodes → SiblingsIn f limit next others →
        SiblingsIn f limit line (nodes ++ others) := by
  cases shown : block.lines? with
  | none =>
      have others := (Markdown.between_cons_none shown).mp between
      rw [firstLine?_cons_none shown] at starts
      refine ⟨line, lower, others, starts, fun nodes others inPlace siblings => ?_⟩
      have nothing : nodes = [] := by
        cases block <;> first | exact inPlace | cases shown
      rw [nothing]
      exact siblings
  | some lines =>
      obtain ⟨after, filled, others⟩ := (Markdown.between_cons_some shown).mp between
      have begun : line ≤ lines.first := starts _ (firstLine?_cons_some shown)
      obtain ⟨taken, takes, sameFirst, longer, stops⟩ :=
        taken?_bounds shown (le_firstLine?_or others room) tidy
      have takenFilled : taken.first < taken.last := by omega
      obtain ⟨region, isPlace, regionAfter, regionBefore⟩ := place?_bounds within takes takenFilled
      refine ⟨taken.last, lines.last, others, ?_, fun nodes others' inPlace siblings => ?_⟩
      · intro n found
        apply stops
        rw [Option.mem_def.mp found]
        rfl
      · unfold InPlace at inPlace
        rw [isPlace] at inPlace
        have startsLe := within.ordered.start_mono (show line ≤ taken.first by omega)
        have lastLe := within.ordered.start_mono (show line ≤ taken.last by omega)
        have inText := within.ordered.stop_le taken.last
        refine ⟨?_, fun outer isLimit outerFirst => List.forall_mem_append.mpr ⟨?_, ?_⟩⟩
        · have own := inPlace.mono (Nat.le_trans startsLe regionAfter) regionBefore
          exact own.append siblings.ready lastLe (Nat.le_trans inText.1 inText.2)
        · -- Front matter is tidy only where no block limits it.
          have other : ∀ inner, block ≠ .frontMatter inner := by
            rintro inner rfl
            rw [Fragment.tidyBlock, isLimit] at tidy
            cases tidy
          have begins := Fragment.begins_eq (begins_of_tidyBlock other shown tidy)
          have inOuter : taken.last ≤ outer.last := le_limit others room stops outer.last isLimit
          rw [place?_eq other takes, Option.some.injEq] at isPlace
          have nested := within.ordered.extent_nests (sameFirst ▸ begins)
            (show outer.first ≤ taken.first by omega) takenFilled inOuter
          rw [isPlace] at nested
          exact (inPlace.mono nested.1 nested.2).aligned.between
        · exact siblings.inside outer isLimit (by omega)

theorem siblingsIn_nil (f : Fragment) (limit : Option Nat) (line : Nat) :
    SiblingsIn f limit line [] :=
  ⟨ready_nil _ _ _, by simp⟩

/-- A piece of raw HTML ends with the content of a line, and no bracket follows. -/
theorem htmlNode_ready (within : f.Within) (isSealed : f.Sealed) {lines : LineRange}
    (filled : lines.first < lines.last) (begins : f.begins lines = true) :
    Ready f.source (f.lines.extent lines.first lines.last).1
      (f.lines.extent lines.first lines.last).2
      [.mk { kind := .html, value := some ((f.spanOfLines lines).slice f.source),
             span := some (f.spanOfLines lines) } []] := by
  have proper := (within.ordered.extent_within lines.first lines.last).2.1
  refine ⟨aligned_singleton (Node.between_of_span rfl (Nat.le_refl _) proper (Nat.le_refl _)),
    List.forall_mem_singleton.mpr (Node.nests_of_span rfl proper (aligned_nil _ _) (by simp)),
    List.forall_mem_singleton.mpr fun region html => ?_⟩
  cases html
  have ends := within.ordered.extent_stop_eq (Fragment.begins_eq begins) filled
  change f.source[(f.lines.extent lines.first lines.last).2]? ≠ some '>'
  rw [ends]
  exact isSealed _

theorem SiblingsIn.ready_behind {outer : LineRange} {middle : Nat} {nodes : List Node}
    (siblings : SiblingsIn f (some outer.last) (outer.first + 1) nodes)
    (inLine : middle ≤ f.lines.start (outer.first + 1)) :
    Ready f.source middle (f.lines.extent outer.first outer.last).2 nodes := by
  have content := siblings.ready_inside (Nat.le_succ outer.first)
  refine ⟨⟨fun node member s found => ?_, content.aligned.inOrder⟩, content.nests,
    content.unclosed⟩
  obtain ⟨start, stop, rfl, starts, inOrder, -⟩ :=
    siblings.ready.aligned.between node member s found
  have bounds := (content.aligned.between node member).bounds found
  exact ⟨start, stop, rfl, Nat.le_trans inLine starts, inOrder, bounds.2.2⟩

mutual

/-- A tidy block becomes a node in its place. -/
theorem blockNodes_leaves (within : f.Within) (isSealed : f.Sealed)
    (folds : FoldsReady f.source fold) (outermost : Bool) {top : Bool} {next : Option Nat} :
    (block : Block) → block.Nested →
      (∀ lines, block.lines? = some lines → lines.first < lines.last) →
      f.tidyBlock top next block = true →
      Leaves (InPlace f block) (blockNodes Fragment.locateParagraph f fold outermost block)
  | .frontMatter lines, _, filled, _ => by
      rw [blockNodes]
      exact Traced.ends_pure (frontMatterNode_ready within (filled lines rfl))
  | .heading lines inner depth atx content, .mk consistent _ _, filled, tidy => by
      rw [Fragment.tidyBlock, Bool.and_eq_true] at tidy
      rw [blockNodes]
      exact (headingNode_ready within (filled lines rfl) consistent tidy.1 tidy.2).map
        fun node ready => ready
  | .paragraph lines tight content, _, _, tidy => by
      rw [Fragment.tidyBlock, Bool.and_eq_true] at tidy
      rw [blockNodes]
      exact (paragraphNode_ready within outermost tidy.2).map fun node ready => ready
  | .indentedCode lines content, _, _, _ => by
      rw [blockNodes]
      exact Traced.ends_pure (ready_lines within lines rfl rfl (ready_nil _ _ _))
  | .fencedCode lines info content, _, _, _ => by
      rw [blockNodes]
      exact Traced.ends_pure (ready_lines within lines rfl rfl (ready_nil _ _ _))
  | .html lines content, _, filled, tidy => by
      rw [blockNodes]
      exact Traced.ends_pure (htmlNode_ready within isSealed (filled lines rfl) tidy)
  | .thematicBreak lines, _, _, _ => by
      rw [blockNodes]
      exact Traced.ends_pure (ready_lines within lines rfl rfl (ready_nil _ _ _))
  | .blockquote lines children, .mk _ inside below, _, tidy => by
      rw [Fragment.tidyBlock, Bool.and_eq_true] at tidy
      have between := inside lines rfl
      rw [blockNodes]
      refine (nodesOfBlocks_leaves within isSealed folds false children between (by simp) below
        tidy.2 fun n found => (firstLine?_bounds between n found).1).map fun nodes siblings => ?_
      exact ready_lines within lines rfl rfl (siblings.ready_inside (Nat.le_refl _))
  | .list lines start items, .mk _ inside below, _, tidy => by
      rw [Fragment.tidyBlock, Bool.and_eq_true] at tidy
      have between := inside lines rfl
      rw [blockNodes]
      refine (nodesOfBlocks_leaves within isSealed folds false items between (by simp) below
        tidy.2 fun n found => (firstLine?_bounds between n found).1).map fun nodes siblings => ?_
      exact ready_lines within lines rfl rfl (siblings.ready_inside (Nat.le_refl _))
  | .item lines children, .mk _ inside below, _, tidy => by
      rw [Fragment.tidyBlock, Bool.and_eq_true] at tidy
      have between := inside lines rfl
      rw [blockNodes]
      refine (nodesOfBlocks_leaves within isSealed folds false children between (by simp) below
        tidy.2 fun n found => (firstLine?_bounds between n found).1).bind fun nodes siblings => ?_
      have content := siblings.ready_inside (Nat.le_refl _)
      apply (folds _ _ _ (within.extent_le _ _) content).map
      intro folded kept
      exact ready_lines within lines rfl rfl kept
  | .table lines alignments header rows, .mk consistent _ _, filled, tidy => by
      rw [Fragment.tidyBlock, Bool.and_eq_true, List.all_eq_true] at tidy
      rw [blockNodes]
      exact (tableNode_leaves within (filled lines rfl) consistent tidy.1 tidy.2).map
        fun nodes ready => ready
  | .directive lines info children, .mk _ inside below, filled, tidy => by
      rw [Fragment.tidyBlock] at tidy
      simp only [Bool.and_eq_true] at tidy
      -- The lines taken may be one more than those of the block, and they limit what is in it.
      have between := inside ⟨lines.first + 1, lines.last⟩ rfl
      have span := f.directiveSpan_eq (filled lines rfl)
      have sameFirst := f.withClosing_first lines
      have longer := f.le_withClosing_last lines
      have after := filled lines rfl
      rw [blockNodes, span]
      change Leaves (Ready f.source (f.lines.extent _ _).1 (f.lines.extent _ _).2) _
      generalize f.withClosing lines = taken at *
      have label := labelNodes_leaves within (show taken.first < taken.last by omega)
      rw [sameFirst] at label
      apply label.bind
      rintro label ⟨middle, starts, before, inLine, labelReady⟩
      refine (nodesOfBlocks_leaves within isSealed folds false children between
        (by simpa using longer) below tidy.2
        fun n found => (firstLine?_bounds between n found).1).bind fun nodes siblings => ?_
      rw [← sameFirst] at siblings inLine
      apply (folds _ _ _ (within.extent_le _ _) (siblings.ready_behind inLine)).map
      intro folded kept
      rw [← sameFirst] at labelReady before starts
      exact ready_lines within taken rfl rfl (labelReady.append kept starts before)
  | .definition label url title, _, _, _ => by
      rw [blockNodes]
      exact Traced.ends_pure rfl

theorem nodesOfBlocks_leaves (within : f.Within) (isSealed : f.Sealed)
    (folds : FoldsReady f.source fold) (outermost : Bool) {limit : Option Nat} :
    (blocks : List Block) → {lower upper line : Nat} → Markdown.Between lower upper blocks →
      (∀ n ∈ limit, upper ≤ n) → (∀ block ∈ blocks, block.Nested) →
      f.tidyBlocks limit blocks = true → (∀ n ∈ firstLine? blocks, line ≤ n) →
      Leaves (SiblingsIn f limit line)
        (nodesOfBlocks Fragment.locateParagraph f fold outermost blocks)
  | [], _, _, line, _, _, _, _, _ => by
      rw [nodesOfBlocks]
      exact Traced.ends_pure (siblingsIn_nil f limit line)
  | block :: rest, _, _, line, between, room, nested, tidy, starts => by
      -- Behind a directive the rest starts later than its block ends, so the line from which it
      -- goes on is carried apart from the bound on the lines of blocks.
      rw [Fragment.tidyBlocks, Bool.and_eq_true] at tidy
      obtain ⟨first, others⟩ := List.forall_mem_cons.mp nested
      obtain ⟨next, lower', restBetween, restStarts, join⟩ :=
        exists_line_after within between room tidy.1 starts
      have filled : ∀ lines, block.lines? = some lines → lines.first < lines.last :=
        fun lines shown => ((Markdown.between_cons_some shown).mp between).2.1
      rw [nodesOfBlocks]
      apply (blockNodes_leaves within isSealed folds outermost block first filled tidy.1).bind
      intro nodes inPlace
      apply (nodesOfBlocks_leaves within isSealed folds outermost rest restBetween room others
        tidy.2 restStarts).map
      exact fun after siblings => join nodes after inPlace siblings

end

end MdxLocalization.Document
