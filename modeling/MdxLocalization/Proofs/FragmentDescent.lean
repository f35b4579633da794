import MdxLocalization.Proofs.ParseRange

/-!
# Fragments shrink

Reading a fragment folds its siblings, folding reads the fragments between tags, and the children of
an element are folded once more when they are complete. This comes to an end: raw HTML stands in the
fragment at hand, each piece behind the one before, and what is read or folded for an element stands
behind its opening tag. So every call is about a shorter part of the source.

`foldWithin` folds as the parser does, but it is stuck when it is to read anything else than a
shorter part of its fragment, or when calls are nested deeper than it allows. What it does when it
is stuck is left open, so that it can agree with the parser only if this never happens.
-/

namespace MdxLocalization

theorem Traced.Ends.bind_congr {ε α β : Type} {result : α → Prop} {failure : ε → Prop}
    {x : Traced ε α} {f g : α → Traced ε β} (first : Traced.Ends result failure x)
    (rest : ∀ a, result a → f a = g a) : x >>= f = x >>= g := by
  funext events
  have settled := first events
  rw [bind_apply, bind_apply]
  cases outcome : x events with
  | mk ended after =>
      rw [outcome] at settled
      cases ended with
      | ok a =>
          exact congrFun (rest a settled) after
      | error e =>
          rfl

namespace Document

open Markdown (Block LineRange)
open Traced (Leaves)

/-- A region is a shorter part of another one. -/
structure Shrinks (outer inner : Region) : Prop where
  after : outer.1 ≤ inner.1
  proper : inner.1 ≤ inner.2
  before : inner.2 ≤ outer.2
  shorter : inner.2 - inner.1 < outer.2 - outer.1

instance (outer inner : Region) : Decidable (Shrinks outer inner) :=
  decidable_of_iff (outer.1 ≤ inner.1 ∧ inner.1 ≤ inner.2 ∧ inner.2 ≤ outer.2 ∧
      inner.2 - inner.1 < outer.2 - outer.1)
    ⟨fun ⟨after, proper, before, shorter⟩ => ⟨after, proper, before, shorter⟩,
      fun ⟨after, proper, before, shorter⟩ => ⟨after, proper, before, shorter⟩⟩

theorem Shrinks.widen {lower upper : Nat} {outer inner : Region}
    (shrinks : Shrinks (lower, upper) inner) (after : outer.1 ≤ lower) (before : upper ≤ outer.2) :
    Shrinks outer inner where
  after := Nat.le_trans after shrinks.after
  proper := shrinks.proper
  before := Nat.le_trans shrinks.before before
  shorter := Nat.lt_of_lt_of_le shrinks.shorter
    (Nat.le_trans (Nat.sub_le_sub_left after upper) (Nat.sub_le_sub_right before outer.1))

/-- Reads a fragment between tags. -/
def readFragment (locate : ParagraphLocator) (source : Text) (fold : Folder) : FragmentReader :=
  fun start stop =>
    if Text.isBlankText (Text.slice source start stop) then return []
    else fragmentNodes locate (Fragment.between source start stop false) fold

/-- Folds siblings of the fragment `outer`; calls are nested at most as deep as the number says. -/
def foldWithin (locate : ParagraphLocator) (source : Text)
    (stuck : Traced ParseError (List Node)) : Nat → Region → Folder
  | 0, _, _ => stuck
  | depth + 1, outer, nodes =>
    let read := fun start stop =>
      if Shrinks outer (start, stop) then
        readFragment locate source (foldWithin locate source stuck depth (start, stop)) start stop
      else stuck
    foldFrom source read (foldWithin locate source stuck depth outer) 0 nodes

variable {locate : ParagraphLocator} {source : Text} {f : Fragment} {read read' : FragmentReader}
  {fold fold' : Folder} {lower upper start stop : Nat} {outer inner : Region} {node : Node}
  {nodes rest : List Node}

/-! ### Raw HTML stays in its place -/

/-- Folding leaves raw HTML between the offsets between which it stood. -/
def KeepsHtml (fold : Folder) : Prop :=
  ∀ lower upper nodes, HtmlWithin lower upper nodes → Leaves (HtmlWithin lower upper) (fold nodes)

theorem element?_noHtml (source : Text) (read : FragmentReader) (fold : Folder) (node : Node)
    (rest : List Node) :
    Leaves (fun found => ∀ element ∈ found, htmlRegion? element.1 = none)
      (element? source read fold node rest) := by
  refine element?_ends_of (by simp) fun start stop tag _ _ => ?_
  have isElement (span : Span) (children : List Node) (consumed : Nat) :
      ∀ element ∈ some (Node.mk (tagInfo tag span) children, consumed),
        htmlRegion? element.1 = none := by
    rintro _ ⟨⟩
    rfl
  refine ⟨isElement _ _ _, fun _ => ⟨fun closing _ => ?_, ?_⟩⟩
  · exact Traced.ends_any.imp fun children _ => isElement _ children 0
  · refine Traced.ends_any.imp fun before _ e _ => ?_
    refine Traced.ends_any.imp fun after _ => ?_
    exact Traced.ends_any.imp fun children _ => isElement _ children _

theorem foldFrom_htmlWithin (skip : Nat) (within : HtmlWithin lower upper nodes) :
    Leaves (HtmlWithin lower upper) (foldFrom source read fold skip nodes) := by
  induction nodes generalizing lower skip with
  | nil =>
      exact Traced.ends_pure within
  | cons node rest hypothesis =>
      obtain ⟨middle, less, behind, put⟩ := within.exists_middle
      have later (skip : Nat) :
          Leaves (HtmlWithin lower upper) (foldFrom source read fold skip rest) :=
        (hypothesis skip behind).imp fun kept stay => stay.mono less (Nat.le_refl _)
      cases skip with
      | succ skip =>
          rw [foldFrom]
          exact later skip
      | zero =>
          rw [foldFrom]
          refine (element?_noHtml source read fold node rest).bind fun found noHtml => ?_
          cases found with
          | none =>
              exact (hypothesis 0 behind).map put
          | some result =>
              exact (later result.2).map fun kept => (htmlWithin_cons_none (noHtml _ rfl)).mpr

theorem foldElements_keepsHtml (locate : ParagraphLocator) (source : Text) (budget : Nat) :
    KeepsHtml (foldElements locate source budget) := by
  intro lower upper nodes within
  cases budget with
  | zero =>
      exact Traced.ends_pure within
  | succ budget =>
      exact foldFrom_htmlWithin 0 within

/-! ### Blocks put raw HTML in their lines -/

/-- The nodes of a block are raw HTML only if the block is, and then they stand in its lines. -/
structure HtmlOf (f : Fragment) (block : Block) (nodes : List Node) : Prop where
  noHtml : block.htmlLines? = none → ∀ node ∈ nodes, htmlRegion? node = none
  html : ∀ lines, block.htmlLines? = some lines → lines.first < lines.last →
    HtmlWithin (f.lines.start lines.first) (f.lines.start lines.last) nodes

theorem htmlOf_single {block : Block} (noNode : htmlRegion? node = none)
    (noHtml : block.htmlLines? = none) : HtmlOf f block [node] where
  noHtml := fun _ => by simpa using noNode
  html := by simp [noHtml]

theorem headingNode_noHtml (lines inner : LineRange) (depth : Nat) (atx : Bool) (content : Text) :
    Leaves (fun node => htmlRegion? node = none)
      (headingNode locate f lines inner depth atx content) := by
  unfold headingNode
  refine Traced.ends_any.bind fun region _ => ?_
  cases region with
  | none =>
      exact Traced.ends_pure rfl
  | some region =>
      exact Traced.ends_any.map fun _ _ => rfl

theorem paragraphNode_noHtml (outermost : Bool) (lines : LineRange) (content : Text) :
    Leaves (fun node => htmlRegion? node = none)
      (paragraphNode locate f outermost lines content) := by
  unfold paragraphNode
  refine Traced.ends_any.bind fun region _ => ?_
  cases region with
  | none =>
      exact Traced.ends_pure rfl
  | some region =>
      dsimp only
      split
      · exact Traced.ends_pure rfl
      · exact Traced.ends_any.map fun _ _ => rfl

theorem blockNodes_html (within : f.Within) (outermost : Bool) (block : Block) :
    Leaves (HtmlOf f block) (blockNodes locate f fold outermost block) := by
  cases block with
  | html lines content =>
      rw [blockNodes]
      refine Traced.ends_pure ⟨by simp [Block.htmlLines?], ?_⟩
      intro covered same filled
      cases same
      exact htmlWithin_spanOfLines within filled _
  | heading lines inner depth atx content =>
      rw [blockNodes]
      exact (headingNode_noHtml lines inner depth atx content).map fun node noHtml =>
        htmlOf_single noHtml rfl
  | paragraph lines tight content =>
      rw [blockNodes]
      exact (paragraphNode_noHtml outermost lines content).map fun node noHtml =>
        htmlOf_single noHtml rfl
  | frontMatter _ | indentedCode _ _ | fencedCode _ _ _ | thematicBreak _ =>
      rw [blockNodes]
      exact Traced.ends_pure (htmlOf_single rfl rfl)
  | blockquote _ _ | list _ _ _ | table _ _ _ _ =>
      rw [blockNodes]
      exact Traced.ends_any.map fun _ _ => htmlOf_single rfl rfl
  | item lines children =>
      rw [blockNodes]
      exact Traced.ends_any.bind fun _ _ => Traced.ends_any.map fun _ _ => htmlOf_single rfl rfl
  | directive lines info children =>
      rw [blockNodes]
      refine Traced.ends_any.bind fun _ _ => Traced.ends_any.bind fun _ _ => ?_
      exact Traced.ends_any.map fun _ _ => htmlOf_single rfl rfl
  | definition label url title =>
      rw [blockNodes]
      exact Traced.ends_pure ⟨by simp, by simp [Block.htmlLines?]⟩

/-- The text of a fragment ends there. -/
abbrev Fragment.textStop (f : Fragment) : Nat := f.lines.base + f.lines.text.length

theorem nodesOfBlocks_html (within : f.Within) (outermost : Bool) {blocks : List Block} {line : Nat}
    (sequence : Markdown.Sequence line blocks) :
    Leaves (HtmlWithin (f.lines.start line) f.textStop)
      (nodesOfBlocks locate f fold outermost blocks) := by
  induction blocks generalizing line with
  | nil =>
      rw [nodesOfBlocks]
      exact Traced.ends_pure
        (Nat.le_trans (within.ordered.stop_le line).1 (within.ordered.stop_le line).2)
  | cons block rest hypothesis =>
      have orderly := (List.forall_mem_cons.mp sequence.orderly).2
      rw [nodesOfBlocks]
      refine (blockNodes_html within outermost block).bind fun nodes first => ?_
      cases isHtml : block.htmlLines? with
      | none =>
          have siblings := (Markdown.htmlFrom_cons_none isHtml).mp sequence.html
          have before : HtmlWithin (f.lines.start line) (f.lines.start line) nodes :=
            htmlWithin_of_none (first.noHtml isHtml) (Nat.le_refl _)
          exact (hypothesis ⟨siblings, orderly⟩).map fun others => before.append
      | some lines =>
          obtain ⟨le, filled, siblings⟩ := (Markdown.htmlFrom_cons_some isHtml).mp sequence.html
          have before := (first.html lines isHtml filled).mono (within.ordered.start_mono le)
            (Nat.le_refl _)
          exact (hypothesis ⟨siblings, orderly⟩).map fun others => before.append

/-- Siblings of a fragment, at its top level or in a block of it. -/
theorem siblings_html (within : f.Within) (outermost : Bool) {blocks : List Block}
    (sequence : Markdown.Sequence 0 blocks) :
    Leaves (HtmlWithin f.lines.base f.textStop) (nodesOfBlocks locate f fold outermost blocks) :=
  (nodesOfBlocks_html within outermost sequence).imp fun _ html =>
    html.mono (f.lines.base_le_start 0) (Nat.le_refl _)

theorem blocks_leave_sequence (t : Text) :
    Leaves (Markdown.Sequence 0)
      (Traced.ofExcept ((Markdown.blocks t).mapError ParseError.ofBlocks)) :=
  Traced.ends_ofExcept (blocks_settles trivial t)

theorem fragmentNodes_html (within : f.Within) (keeps : KeepsHtml fold) :
    Leaves (HtmlWithin f.lines.base f.textStop) (fragmentNodes locate f fold) := by
  unfold fragmentNodes
  refine (blocks_leave_sequence f.text).bind fun blocks sequence => ?_
  exact (siblings_html within true sequence).bind fun nodes => keeps _ _ nodes

/-! ### Calls about shorter parts -/

/-- Two readers do the same with each shorter part of a region. -/
def ReadsAlike (outer : Region) (read read' : FragmentReader) : Prop :=
  ∀ inner, Shrinks outer inner → read inner.1 inner.2 = read' inner.1 inner.2

/-- Two ways of folding do the same with siblings whose raw HTML stands in a shorter part of a
region. -/
def FoldsAlike (outer : Region) (fold fold' : Folder) : Prop :=
  ∀ inner nodes, Shrinks outer inner → HtmlWithin inner.1 inner.2 nodes → fold nodes = fold' nodes

/-- Reading gives raw HTML only in the region that is read. -/
def ReadsHtml (source : Text) (read : FragmentReader) : Prop :=
  ∀ start stop, start ≤ stop → stop ≤ source.length →
    Leaves (HtmlWithin start stop) (read start stop)

/-- An element is read and folded behind its opening tag. -/
theorem element?_congr (inSource : upper ≤ source.length)
    (reads : ReadsAlike (lower, upper) read read') (leaves : ReadsHtml source read)
    (folds : FoldsAlike (lower, upper) fold fold')
    (within : HtmlWithin lower upper (node :: rest)) :
    element? source read fold node rest = element? source read' fold' node rest := by
  unfold element?
  cases html : htmlRegion? node with
  | none =>
      rfl
  | some region =>
      obtain ⟨start, stop⟩ := region
      dsimp only
      cases isTag : Jsx.readTag? source start stop with
      | none =>
          rfl
      | some tag =>
          obtain ⟨after, inOrder, siblings⟩ := (htmlWithin_cons_some html).mp within
          have before := siblings.le
          obtain ⟨tagStop, span, filled, -, opens, -⟩ :=
            Jsx.readTag?_within inOrder (Nat.le_trans before inSource) isTag
          have tagStopEq : tag.span.stop.toNat = tagStop := by
            rw [span]
            rfl
          have shrinks {a b : Nat} (behind : tagStop ≤ a) (proper : a ≤ b) (inside : b ≤ upper) :
              Shrinks (lower, upper) (a, b) := by
            constructor <;> dsimp only <;> omega
          dsimp only
          rw [tagStopEq]
          split
          · rfl
          · rename_i isOpen
            have tagBefore : tagStop ≤ stop := opens (.inl (by simpa using isOpen))
            cases isClosing : closingTagIn? source tag.name tagStop stop with
            | some closing =>
                obtain ⟨behind, proper, inside, -⟩ := closingTagIn?_within tagBefore isClosing
                dsimp only
                rw [reads _ (shrinks (Nat.le_refl _) behind (by omega))]
            | none =>
                dsimp only
                rw [← reads _ (shrinks (Nat.le_refl _) tagBefore before)]
                refine (leaves tagStop stop tagBefore (by omega)).bind_congr fun first leading => ?_
                cases isEnding : ending? source tag.name 0 rest with
                | none =>
                    rfl
                | some e =>
                    obtain ⟨between, gap, afterPiece, proper, inside⟩ :=
                      siblings.of_ending? isEnding
                    dsimp only
                    rw [← reads _ (shrinks (by omega) afterPiece (by omega))]
                    refine (leaves e.start e.tag.1 afterPiece (by omega)).bind_congr
                      fun last trailing => ?_
                    have content := (leading.append between).append trailing
                    rw [folds _ _ (shrinks (Nat.le_refl _) content.le (by omega)) content]

theorem foldFrom_congr (inSource : upper ≤ source.length)
    (reads : ReadsAlike (lower, upper) read read') (leaves : ReadsHtml source read)
    (folds : FoldsAlike (lower, upper) fold fold') (skip : Nat)
    (within : HtmlWithin lower upper nodes) :
    foldFrom source read fold skip nodes = foldFrom source read' fold' skip nodes := by
  induction nodes generalizing skip with
  | nil =>
      rw [foldFrom, foldFrom]
  | cons node rest hypothesis =>
      obtain ⟨middle, less, behind, -⟩ := within.exists_middle
      have later := behind.mono less (Nat.le_refl upper)
      cases skip with
      | succ skip =>
          rw [foldFrom, foldFrom, hypothesis skip later]
      | zero =>
          rw [foldFrom, foldFrom, element?_congr inSource reads leaves folds within]
          congr 1
          funext found
          cases found with
          | none =>
              dsimp only
              rw [hypothesis 0 later]
          | some result =>
              dsimp only
              rw [hypothesis result.2 later]

/-- Two ways of folding do the same with all siblings of a fragment. -/
def FoldsSiblingsAlike (f : Fragment) (fold fold' : Folder) : Prop :=
  ∀ nodes, HtmlWithin f.lines.base f.textStop nodes → fold nodes = fold' nodes

mutual

theorem blockNodes_congr (within : f.Within) (folds : FoldsSiblingsAlike f fold fold')
    (outermost : Bool) :
    (block : Block) → block.Orderly →
      blockNodes locate f fold outermost block = blockNodes locate f fold' outermost block
  | .blockquote lines children, .mk _ html below => by
      rw [blockNodes, blockNodes, nodesOfBlocks_congr within folds false children below]
  | .list lines start items, .mk _ html below => by
      rw [blockNodes, blockNodes, nodesOfBlocks_congr within folds false items below]
  | .item lines children, .mk _ html below => by
      rw [blockNodes, blockNodes, ← nodesOfBlocks_congr within folds false children below]
      refine (siblings_html within false ⟨html, below⟩).bind_congr fun nodes inPlace => ?_
      rw [folds nodes inPlace]
  | .directive lines info children, .mk _ html below => by
      rw [blockNodes, blockNodes, ← nodesOfBlocks_congr within folds false children below]
      congr 1
      funext label
      refine (siblings_html within false ⟨html, below⟩).bind_congr fun nodes inPlace => ?_
      rw [folds nodes inPlace]
  | .frontMatter _, _ | .heading _ _ _ _ _, _ | .paragraph _ _ _, _ | .indentedCode _ _, _
  | .fencedCode _ _ _, _ | .html _ _, _ | .thematicBreak _, _ | .table _ _ _ _, _
  | .definition _ _ _, _ => by
      rw [blockNodes, blockNodes]

theorem nodesOfBlocks_congr (within : f.Within) (folds : FoldsSiblingsAlike f fold fold')
    (outermost : Bool) :
    (blocks : List Block) → (∀ block ∈ blocks, block.Orderly) →
      nodesOfBlocks locate f fold outermost blocks = nodesOfBlocks locate f fold' outermost blocks
  | [], _ => by
      rw [nodesOfBlocks, nodesOfBlocks]
  | block :: rest, orderly => by
      obtain ⟨first, others⟩ := List.forall_mem_cons.mp orderly
      rw [nodesOfBlocks, nodesOfBlocks, blockNodes_congr within folds outermost block first,
        nodesOfBlocks_congr within folds outermost rest others]

end

theorem fragmentNodes_congr (within : f.Within) (folds : FoldsSiblingsAlike f fold fold') :
    fragmentNodes locate f fold = fragmentNodes locate f fold' := by
  unfold fragmentNodes
  refine (blocks_leave_sequence f.text).bind_congr fun blocks sequence => ?_
  rw [← nodesOfBlocks_congr within folds true blocks sequence.orderly]
  exact (siblings_html within true sequence).bind_congr folds

/-! ### Fragments -/

theorem textStop_between (inOrder : start ≤ stop) (inSource : stop ≤ source.length) (whole : Bool) :
    (Fragment.between source start stop whole).textStop = stop := by
  change start + (Text.slice source start stop).length = stop
  rw [Text.length_slice]
  omega

theorem fragmentNodes_between_congr (inOrder : start ≤ stop) (inSource : stop ≤ source.length)
    (whole : Bool) (folds : ∀ nodes, HtmlWithin start stop nodes → fold nodes = fold' nodes) :
    fragmentNodes locate (Fragment.between source start stop whole) fold =
      fragmentNodes locate (Fragment.between source start stop whole) fold' := by
  have inside := Fragment.between_within (Nat.le_trans inOrder inSource) stop whole
  refine fragmentNodes_congr inside fun nodes html => folds nodes ?_
  rwa [textStop_between inOrder inSource whole] at html

theorem readFragment_congr (inOrder : start ≤ stop) (inSource : stop ≤ source.length)
    (folds : ∀ nodes, HtmlWithin start stop nodes → fold nodes = fold' nodes) :
    readFragment locate source fold start stop = readFragment locate source fold' start stop := by
  rw [readFragment, readFragment, fragmentNodes_between_congr inOrder inSource false folds]

theorem readFragment_html (keeps : KeepsHtml fold) :
    ReadsHtml source (readFragment locate source fold) := by
  intro start stop inOrder inSource
  have inside := Fragment.between_within (Nat.le_trans inOrder inSource) stop false
  rw [readFragment]
  split
  · exact Traced.ends_pure inOrder
  · have inFragment : Leaves (HtmlWithin start (Fragment.textStop _))
        (fragmentNodes locate _ fold) := fragmentNodes_html inside keeps
    rwa [textStop_between inOrder inSource false] at inFragment

theorem foldElements_succ (locate : ParagraphLocator) (source : Text) (budget : Nat)
    (nodes : List Node) :
    foldElements locate source (budget + 1) nodes =
      foldFrom source (readFragment locate source (foldElements locate source budget))
        (foldElements locate source budget) 0 nodes := rfl

/-- Folding is never stuck where the budget and the depth are greater than the part of the fragment
in which the raw HTML stands. -/
theorem foldElements_eq_foldWithin (stuck : Traced ParseError (List Node)) {budget depth : Nat}
    (html : HtmlWithin lower upper nodes) (inSource : upper ≤ source.length)
    (after : outer.1 ≤ lower) (before : upper ≤ outer.2) (enough : upper - lower < budget)
    (deep : upper - lower < depth) :
    foldElements locate source budget nodes =
      foldWithin locate source stuck depth outer nodes := by
  induction depth generalizing budget lower upper outer nodes with
  | zero =>
      exact absurd deep (Nat.not_lt_zero _)
  | succ depth hypothesis =>
      cases budget with
      | zero =>
          exact absurd enough (Nat.not_lt_zero _)
      | succ budget =>
          rw [foldElements_succ, foldWithin]
          have keeps := foldElements_keepsHtml locate source budget
          refine foldFrom_congr inSource ?_ (readFragment_html keeps) ?_ 0 html
          · intro inner shrinks
            have inside := Nat.le_trans shrinks.before inSource
            have shorter := Nat.lt_of_lt_of_le shrinks.shorter (Nat.le_of_lt_succ enough)
            have shallower := Nat.lt_of_lt_of_le shrinks.shorter (Nat.le_of_lt_succ deep)
            dsimp only
            rw [if_pos (shrinks.widen after before)]
            exact readFragment_congr shrinks.proper inside fun nodes html =>
              hypothesis html inside (Nat.le_refl _) (Nat.le_refl _) shorter shallower
          · intro inner nodes shrinks html
            have part := shrinks.widen after before
            exact hypothesis html (Nat.le_trans shrinks.before inSource) part.after part.before
              (Nat.lt_of_lt_of_le shrinks.shorter (Nat.le_of_lt_succ enough))
              (Nat.lt_of_lt_of_le shrinks.shorter (Nat.le_of_lt_succ deep))

theorem foldElements_congr_budget {budget budget' : Nat} (html : HtmlWithin lower upper nodes)
    (inSource : upper ≤ source.length) (enough : upper - lower < budget)
    (enough' : upper - lower < budget') :
    foldElements locate source budget nodes = foldElements locate source budget' nodes := by
  have guarded {n : Nat} (enough : upper - lower < n) :
      foldElements locate source n nodes =
        foldWithin locate source (pure []) (upper - lower + 1) (lower, upper) nodes :=
    foldElements_eq_foldWithin (pure []) html inSource (Nat.le_refl _) (Nat.le_refl _) enough
      (Nat.lt_succ_self _)
  exact (guarded enough).trans (guarded enough').symm

/-- Converting a fragment reads shorter and shorter parts of it, and comes to an end before the
budget does: it does the same when it is stuck at any other read, and at calls nested deeper than
the fragment is long, and with what is left of the budget it goes on as with the whole of it. -/
theorem fragmentNodes_descends {source : Text} {start stop budget : Nat} (inOrder : start ≤ stop)
    (inSource : stop ≤ source.length) (enough : stop - start < budget) (locate : ParagraphLocator)
    (whole : Bool) :
    (∀ stuck depth, stop - start < depth →
      fragmentNodes locate (Fragment.between source start stop whole)
          (foldElements locate source budget) =
        fragmentNodes locate (Fragment.between source start stop whole)
          (foldWithin locate source stuck depth (start, stop))) ∧
      ∀ nodes, HtmlWithin start stop nodes →
        foldElements locate source budget nodes =
          foldFrom source (readFragment locate source (foldElements locate source budget))
            (foldElements locate source budget) 0 nodes := by
  constructor
  · intro stuck depth deep
    exact fragmentNodes_between_congr inOrder inSource whole fun nodes html =>
      foldElements_eq_foldWithin stuck html inSource (Nat.le_refl _) (Nat.le_refl _) enough deep
  · intro nodes html
    cases budget with
    | zero =>
        exact absurd enough (Nat.not_lt_zero _)
    | succ budget =>
        have alike {inner : Region} (shrinks : Shrinks (start, stop) inner) (nodes : List Node)
            (html : HtmlWithin inner.1 inner.2 nodes) :
            foldElements locate source budget nodes =
              foldElements locate source (budget + 1) nodes := by
          have shorter := Nat.lt_of_lt_of_le shrinks.shorter (Nat.le_of_lt_succ enough)
          exact foldElements_congr_budget html (Nat.le_trans shrinks.before inSource) shorter
            (Nat.lt_succ_of_lt shorter)
        rw [foldElements_succ]
        have keeps := foldElements_keepsHtml locate source budget
        refine foldFrom_congr inSource ?_ (readFragment_html keeps) ?_ 0 html
        · intro inner shrinks
          exact readFragment_congr shrinks.proper (Nat.le_trans shrinks.before inSource)
            (alike shrinks)
        · intro inner nodes shrinks
          exact alike shrinks nodes

theorem fragmentNodes_descends_nested :
    let source := Text.ofString "<A>\n<B>\n\nx\n\n</B>\n</A>"
    let fold := foldWithin Fragment.locateParagraph source (throw .regionPastEnd) 22 (0, 21)
    (0 ≤ 21 ∧ 21 ≤ source.length ∧ 21 - 0 < 22) ∧
      (fragmentNodes Fragment.locateParagraph (Fragment.between source 0 21 true)
        fold).outcome.1.isOk = true := by
  intro source fold
  have inSource : 21 ≤ source.length := by
    decide
  have enough : 21 - 0 < 22 := by
    decide
  have read : (fragmentNodes Fragment.locateParagraph (Fragment.between source 0 21 true)
      (foldElements Fragment.locateParagraph source 22)).outcome.1.isOk = true := by
    decide +kernel
  have descends := (fragmentNodes_descends (Nat.zero_le 21) inSource enough Fragment.locateParagraph
    true).1 (throw .regionPastEnd) 22 enough
  have same := congrArg (fun run => run.outcome.1.isOk) descends.symm
  exact ⟨⟨Nat.zero_le 21, inSource, enough⟩, same.trans read⟩

end Document

end MdxLocalization
