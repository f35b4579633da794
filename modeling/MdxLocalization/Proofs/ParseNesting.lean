import MdxLocalization.Proofs.BlockNesting

/-!
# Parsed trees nest

Parsing is compared with parsing that refuses blocks that are not tidy. Where nothing is refused the
two run alike, and what comes out nests: the blocks of a document or of a fragment become siblings
in their place, and folding the elements among them keeps that.

A directive that no mark closes is not tidy when a line follows that is not blank. Such a directive
reaches past the quote or the list item in which it stands.
-/

namespace MdxLocalization.Document

open Markdown (Block)
open Traced (Leaves)

/-! ### Refusing blocks that are not tidy -/

/-- The nodes of a fragment, if its blocks are tidy. -/
def tidyNodes (f : Fragment) (fold : Folder) : Traced ParseError (List Node) := do
  let blocks ← Traced.ofExcept ((Markdown.blocks f.text).mapError .ofBlocks)
  if f.tidyBlocks none blocks then
    fold (← nodesOfBlocks Fragment.locateParagraph f fold true blocks)
  else throw .regionPastEnd

/-- Folds the elements among siblings, where fragments have to be tidy. -/
def tidyFold (source : Text) : Nat → Folder
  | 0, nodes => return nodes
  | budget + 1, nodes =>
    let inner := tidyFold source budget
    let read := fun start stop =>
      if Text.isBlankText (Text.slice source start stop) then return []
      else tidyNodes (Fragment.between source start stop false) inner
    foldFrom source read inner 0 nodes

/-- The tree of a document of which all blocks are tidy. -/
def tidyParse (source : Text) : Traced ParseError Node := do
  let f := Fragment.between source 0 source.length true
  let children ← tidyNodes f (tidyFold source (source.length + 1))
  Traced.log ⟨.debug, .parser, Text.ofString "文档解析完成", [("node_count", .ofNat children.length)]⟩
  let span := if source.isEmpty then none else some (Span.ofNats 0 source.length)
  return .mk { kind := .root, span } children

/-- While the source is parsed, blocks are read that are not tidy. -/
def Strays (source : Text) : Prop := (tidyParse source).outcome.1 = .error .regionPastEnd

/-- A computation runs as another one does, unless that one refuses. -/
abbrev Allows {α : Type} (x y : Traced ParseError α) : Prop :=
  Traced.Follows ParseError.regionPastEnd (fun _ => True) x y

theorem Allows.bind {α β : Type} {x y : Traced ParseError α} {f g : α → Traced ParseError β}
    (first : Allows x y) (rest : ∀ a, Allows (f a) (g a)) : Allows (x >>= f) (y >>= g) :=
  Traced.Follows.bind first rest fun _ _ => Traced.ends_any

variable {source : Text} {read read' : FragmentReader} {fold fold' : Folder}

theorem element?_allows (reads : ∀ start stop, Allows (read start stop) (read' start stop))
    (folds : ∀ nodes, Allows (fold nodes) (fold' nodes)) (node : Node) (rest : List Node) :
    Allows (element? source read fold node rest) (element? source read' fold' node rest) := by
  have same {α : Type} (x : Traced ParseError α) : Allows x x := .refl _ _ x
  unfold element?
  cases htmlRegion? node with
  | none =>
      exact same _
  | some region =>
      obtain ⟨start, stop⟩ := region
      dsimp only
      cases Jsx.readTag? source start stop with
      | none =>
          exact same _
      | some tag =>
          dsimp only
          split
          · exact same _
          · cases closingTagIn? source tag.name tag.span.stop.toNat stop with
            | some closing =>
                exact (reads _ _).bind fun children => same _
            | none =>
                apply (reads _ _).bind
                intro before
                cases ending? source tag.name 0 rest with
                | none =>
                    exact same _
                | some e =>
                    exact (reads _ _).bind fun after => (folds _).bind fun children => same _

theorem foldFrom_allows (reads : ∀ start stop, Allows (read start stop) (read' start stop))
    (folds : ∀ nodes, Allows (fold nodes) (fold' nodes)) (skip : Nat) (nodes : List Node) :
    Allows (foldFrom source read fold skip nodes) (foldFrom source read' fold' skip nodes) := by
  induction nodes generalizing skip with
  | nil =>
      exact .refl _ _ _
  | cons node rest hypothesis =>
      cases skip with
      | succ skip =>
          exact hypothesis skip
      | zero =>
          rw [foldFrom, foldFrom]
          apply (element?_allows reads folds node rest).bind
          intro found
          cases found with
          | none =>
              exact (hypothesis 0).bind fun kept => .refl _ _ _
          | some result =>
              exact (hypothesis result.2).bind fun kept => .refl _ _ _

variable {locate locate' : ParagraphLocator}

theorem headingNode_allows
    (locates : ∀ f lines content, Allows (locate f lines content) (locate' f lines content))
    (f : Fragment) (lines inner : Markdown.LineRange) (depth : Nat) (atx : Bool) (content : Text) :
    Allows (headingNode locate f lines inner depth atx content)
      (headingNode locate' f lines inner depth atx content) := by
  unfold headingNode headingRegion
  cases atx with
  | true =>
      exact .refl _ _ _
  | false =>
      exact (locates f inner content).bind fun region => .refl _ _ _

mutual

theorem blockNodes_allows
    (locates : ∀ f lines content, Allows (locate f lines content) (locate' f lines content))
    (f : Fragment) (folds : ∀ nodes, Allows (fold nodes) (fold' nodes)) (outermost : Bool) :
    (block : Block) →
      Allows (blockNodes locate f fold outermost block) (blockNodes locate' f fold' outermost block)
  | .heading lines inner depth atx content => by
      rw [blockNodes, blockNodes]
      exact (headingNode_allows locates f lines inner depth atx content).bind fun node =>
        .refl _ _ _
  | .paragraph lines tight content => by
      rw [blockNodes, blockNodes, paragraphNode, paragraphNode]
      refine Allows.bind ?_ fun node => .refl _ _ _
      exact (locates f lines content).bind fun region => .refl _ _ _
  | .blockquote lines children => by
      rw [blockNodes, blockNodes]
      exact (nodesOfBlocks_allows locates f folds false children).bind fun nodes => .refl _ _ _
  | .list lines start items => by
      rw [blockNodes, blockNodes]
      exact (nodesOfBlocks_allows locates f folds false items).bind fun nodes => .refl _ _ _
  | .item lines children => by
      rw [blockNodes, blockNodes]
      exact (nodesOfBlocks_allows locates f folds false children).bind fun nodes =>
        (folds nodes).bind fun folded => .refl _ _ _
  | .directive lines info children => by
      rw [blockNodes, blockNodes]
      refine Allows.bind (.refl _ _ (labelNodes f lines.first)) fun label => ?_
      exact (nodesOfBlocks_allows locates f folds false children).bind fun nodes =>
        (folds nodes).bind fun folded => .refl _ _ _
  | .frontMatter _ | .indentedCode _ _ | .fencedCode _ _ _ | .html _ _ | .thematicBreak _
  | .table _ _ _ _ | .definition _ _ _ => by
      rw [blockNodes, blockNodes]
      exact .refl _ _ _

theorem nodesOfBlocks_allows
    (locates : ∀ f lines content, Allows (locate f lines content) (locate' f lines content))
    (f : Fragment) (folds : ∀ nodes, Allows (fold nodes) (fold' nodes)) (outermost : Bool) :
    (blocks : List Block) →
      Allows (nodesOfBlocks locate f fold outermost blocks)
        (nodesOfBlocks locate' f fold' outermost blocks)
  | [] => by
      rw [nodesOfBlocks, nodesOfBlocks]
      exact .refl _ _ _
  | block :: rest => by
      rw [nodesOfBlocks, nodesOfBlocks]
      exact (blockNodes_allows locates f folds outermost block).bind fun nodes =>
        (nodesOfBlocks_allows locates f folds outermost rest).bind fun others => .refl _ _ _

end

theorem fragmentNodes_allows (f : Fragment) (folds : ∀ nodes, Allows (fold nodes) (fold' nodes)) :
    Allows (fragmentNodes Fragment.locateParagraph f fold) (tidyNodes f fold') := by
  unfold fragmentNodes tidyNodes
  refine Allows.bind (.refl _ _ _) fun blocks => ?_
  split
  · exact (nodesOfBlocks_allows (fun _ _ _ => .refl _ _ _) f folds true blocks).bind folds
  · exact fun events => Or.inr ⟨rfl, Traced.ends_any events⟩

theorem foldElements_allows (source : Text) (budget : Nat) (nodes : List Node) :
    Allows (foldElements Fragment.locateParagraph source budget nodes)
      (tidyFold source budget nodes) := by
  induction budget generalizing nodes with
  | zero =>
      exact .refl _ _ _
  | succ budget hypothesis =>
      rw [foldElements, tidyFold]
      refine foldFrom_allows (fun start stop => ?_) hypothesis 0 nodes
      split
      · exact .refl _ _ _
      · exact fragmentNodes_allows _ hypothesis

theorem parse_allows (source : Text) : Allows (parse source) (tidyParse source) := by
  unfold parse parseWith tidyParse
  exact (fragmentNodes_allows _ (foldElements_allows source _)).bind fun children => .refl _ _ _

/-! ### Tidy fragments -/

/-- The blocks of a fragment nest by their lines. -/
theorem blocks_nested (f : Fragment) :
    Settles (fun blocks => (∃ upper, Markdown.Between 0 upper blocks) ∧
        ∀ block ∈ blocks, block.Nested) (fun _ => True)
      ((Markdown.blocks f.text).mapError ParseError.ofBlocks) := by
  have settled := Markdown.blocks_nested f.text
  cases found : Markdown.blocks f.text with
  | error e =>
      trivial
  | ok blocks =>
      rw [found] at settled
      exact ⟨⟨_, settled.1⟩, settled.2⟩

/-- The nodes of a tidy fragment stand in it. -/
theorem tidyNodes_leaves {start stop : Nat} (inOrder : start ≤ stop)
    (within : stop ≤ source.length) (unclosed : source[stop]? ≠ some '>') (whole : Bool)
    (folds : FoldsReady source fold) :
    Leaves (Ready source start stop)
      (tidyNodes (Fragment.between source start stop whole) fold) := by
  have fits := Fragment.between_within (Nat.le_trans inOrder within) stop whole
  have isSealed := Fragment.between_sealed inOrder within unclosed whole
  have size := Text.length_slice source start stop
  have starts : start ≤ (Fragment.between source start stop whole).lines.start 0 :=
    SourceLines.base_le_start (Fragment.between source start stop whole).lines 0
  unfold tidyNodes
  apply (Traced.ends_ofExcept (blocks_nested _)).bind
  rintro blocks ⟨⟨upper, between⟩, nested⟩
  split
  · rename_i tidy
    apply (nodesOfBlocks_leaves fits isSealed folds true blocks between (by simp) nested tidy
      (fun n _ => Nat.zero_le n)).bind
    intro nodes siblings
    apply folds start stop nodes within
    refine siblings.ready.mono starts ?_
    change start + (Text.slice source start stop).length ≤ stop
    omega
  · exact Traced.ends_throw trivial

theorem tidyFold_ready (source : Text) (budget : Nat) :
    FoldsReady source (tidyFold source budget) := by
  induction budget with
  | zero =>
      exact fun lower upper nodes within ready => Traced.ends_pure ready
  | succ budget hypothesis =>
      intro lower upper nodes within ready
      rw [tidyFold]
      refine foldFrom_leaves_ready (fun start stop inOrder inside unclosed => ?_) hypothesis
        within 0 ready
      split
      · exact Traced.ends_pure (ready_nil source start stop)
      · exact tidyNodes_leaves inOrder inside unclosed false hypothesis

theorem tidyParse_leaves (source : Text) : Leaves Node.Nests (tidyParse source) := by
  have unclosed : source[source.length]? ≠ some '>' := by simp
  unfold tidyParse
  apply (tidyNodes_leaves (Nat.zero_le _) (Nat.le_refl _) unclosed true
    (tidyFold_ready source (source.length + 1))).bind
  intro children ready
  refine (Traced.ends_log _).bind fun _ _ => Traced.ends_pure ?_
  by_cases empty : source.isEmpty
  · exact Node.nests_of_none (by simp [empty]) ready.aligned.inOrder ready.nests
  · exact Node.nests_of_span (by simp [empty]) (Nat.zero_le _) ready.aligned ready.nests

/-! ### Nesting -/

/-- A parsed tree nests at every depth, unless blocks are read that are not tidy. -/
theorem parse_nests {source : Text} {root : Node} (tidy : ¬ Strays source)
    (parsed : (parse source).outcome.1 = .ok root) : root.Nests := by
  rcases parse_allows source [] with same | ⟨refused, -⟩
  · have settled : Settles Node.Nests (fun _ => True) (tidyParse source).outcome.1 :=
      tidyParse_leaves source []
    have alike : (parse source).outcome.1 = (tidyParse source).outcome.1 := congrArg Prod.fst same
    rw [← alike, parsed] at settled
    exact settled
  · exact absurd refused tidy

/-- A list with a directive that holds a list, and an element over several pieces of raw HTML with a
table between its tags, are parsed into a tree that nests. -/
theorem parse_nests_directive :
    let source := Text.ofString
      "- ::: note [a](b)\n  - c\n  :::\n\n<B>\n\n| d |\n|---|\n| e |\n\n</B>"
    ∃ root, ¬ Strays source ∧ (parse source).outcome.1 = .ok root ∧ root.Nests := by
  intro source
  have read : (parse source).outcome.1.isOk = true := by
    decide +kernel
  have checked : (tidyParse source).outcome.1.isOk = true := by
    decide +kernel
  have tidy : ¬ Strays source := by
    intro strays
    unfold Strays at strays
    rw [strays] at checked
    cases checked
  cases parsed : (parse source).outcome.1 with
  | error e =>
      rw [parsed] at read
      cases read
  | ok root =>
      exact ⟨root, tidy, rfl, parse_nests tidy parsed⟩

/-- Not all parsed trees nest. The quote ends with its second line. The directive in it is not
closed, and takes the third line, a heading, as its closing one. -/
theorem not_forall_parse_nests :
    ¬ ∀ source root, (parse source).outcome.1 = .ok root → root.Nests := by
  intro claim
  have spans : ((parse (Text.ofString "> ::: note\n> a\n# h")).outcome.1.map fun root =>
      root.children.map fun node => (node.span, node.children.map Node.span)) =
      .ok [(some (Span.ofNats 0 14), [some (Span.ofNats 0 18)]),
        (some (Span.ofNats 15 18), [some (Span.ofNats 17 18)])] := by
    decide +kernel
  cases parsed : (parse (Text.ofString "> ::: note\n> a\n# h")).outcome.1 with
  | error e =>
      rw [parsed] at spans
      cases spans
  | ok root =>
      rw [parsed] at spans
      simp only [Except.map, Except.ok.injEq] at spans
      obtain ⟨quote, others, isFirst, same, -⟩ := List.map_eq_cons_iff.mp spans
      obtain ⟨quoteSpan, inner⟩ := Prod.mk.injEq _ _ _ _ ▸ same
      obtain ⟨directive, rest, isInner, directiveSpan, -⟩ := List.map_eq_cons_iff.mp inner
      have nests := (claim _ root parsed).of_mem (isFirst ▸ List.mem_cons_self)
      have bounds := nests.bounds quoteSpan (isInner ▸ List.mem_cons_self) directiveSpan
      exact absurd bounds.2 (by decide)

end MdxLocalization.Document
