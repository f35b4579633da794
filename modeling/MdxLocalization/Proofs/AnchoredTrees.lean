import MdxLocalization.Document.Parsing
import MdxLocalization.Proofs.ElementRange
import MdxLocalization.Proofs.InlineTiling

/-!
# Parsed nodes that hold others have a span

Parsing leaves out the span of an empty paragraph or cell, but not the span of a node with children.
Where a link stands is therefore known at every depth, through the spans around it. This holds
however paragraphs are located.
-/

namespace MdxLocalization

/-- The kinds of nodes that stand in a line of text. -/
def NodeKind.inlineKinds : List NodeKind := [text, link, image, inlineCode]

/-- Nodes that hold others have a span. Links have an address and a span that is not empty, and the
children of a label are inline nodes. -/
inductive Node.Anchored : Node → Prop where
  | mk {info : NodeInfo} {children : List Node} (placed : children ≠ [] → info.span.isSome)
      (link : info.kind = .link →
        info.url.isSome ∧ ∃ span, info.span = some span ∧ span.start < span.stop)
      (label : info.flag "directiveLabel" = true → ∀ child ∈ children,
        child.kind ∈ NodeKind.inlineKinds)
      (below : ∀ child ∈ children, Anchored child) : Anchored (.mk info children)

section Nodes

variable {node child : Node} {info : NodeInfo} {children : List Node} {span : Span}

theorem Node.Anchored.of_mem (anchored : node.Anchored) (member : child ∈ node.children) :
    child.Anchored := by
  obtain ⟨-, -, -, below⟩ := anchored
  exact below child member

theorem Node.anchored_leaf (noLink : info.kind ≠ .link) : Node.Anchored (.mk info []) :=
  .mk (by simp) (fun link => absurd link noLink) (by simp) (by simp)

theorem Node.anchored_of_span (placed : info.span = some span) (noLink : info.kind ≠ .link)
    (noLabel : info.flag "directiveLabel" = false) (below : ∀ child ∈ children, child.Anchored) :
    Node.Anchored (.mk info children) :=
  .mk (fun _ => by simp [placed]) (fun link => absurd link noLink) (by simp [noLabel]) below

/-- An anchored inline node. -/
structure Node.AnchoredInline (node : Node) : Prop where
  anchored : node.Anchored
  kind : node.kind ∈ NodeKind.inlineKinds

/-- Blocks of inline nodes may be labels. -/
theorem Node.anchored_of_inline (placed : info.span = some span) (noLink : info.kind ≠ .link)
    (content : ∀ child ∈ children, child.AnchoredInline) : Node.Anchored (.mk info children) :=
  .mk (fun _ => by simp [placed]) (fun link => absurd link noLink)
    (fun _ child member => (content child member).kind) fun child member =>
      (content child member).anchored

end Nodes

/-! ### Scanned nodes -/

namespace Inline

theorem anchoredInline_leaf {info : NodeInfo} (kind : info.kind ∈ NodeKind.inlineKinds)
    (noLink : info.kind ≠ .link) : Node.AnchoredInline (.mk info []) :=
  ⟨Node.anchored_leaf noLink, kind⟩

theorem flush_anchored (position : Nat) (pending : Text) :
    ∀ node ∈ flush position pending, node.AnchoredInline := by
  unfold flush
  split
  · simp
  · exact List.forall_mem_singleton.mpr
      (anchoredInline_leaf (by simp [NodeKind.inlineKinds]) (by simp))

theorem Scans.anchored {position : Nat} {pending t : Text} {nodes : List Node}
    (scans : Scans position pending t nodes) : ∀ node ∈ nodes, node.AnchoredInline := by
  have joined {position : Nat} {pending : Text} {node : Node} {nodes : List Node}
      (first : node.AnchoredInline) (later : ∀ other ∈ nodes, other.AnchoredInline) :
      ∀ other ∈ flush position pending ++ node :: nodes, other.AnchoredInline :=
    List.forall_mem_append.mpr
      ⟨flush_anchored position pending, List.forall_mem_cons.mpr ⟨first, later⟩⟩
  induction scans with
  | stops =>
      exact flush_anchored _ _
  | collects count fits further hypothesis =>
      exact hypothesis
  | code found further hypothesis =>
      exact joined (anchoredInline_leaf (by simp [NodeKind.inlineKinds]) (by simp)) hypothesis
  | image found further hypothesis =>
      exact joined (anchoredInline_leaf (by simp [NodeKind.inlineKinds]) (by simp)) hypothesis
  | @link position _ rest children _ parts found label further labelHypothesis hypothesis =>
      have brackets := link?_label_lt found
      refine joined ⟨.mk (fun _ => rfl) (fun _ => ⟨rfl, _, rfl, ?_⟩) ?_ ?_, ?_⟩ hypothesis
      · simp only [Span.ofNats]
        omega
      · exact fun _ child member => (labelHypothesis child member).kind
      · exact fun child member => (labelHypothesis child member).anchored
      · simp [Node.kind, Node.info, linkInfo, NodeKind.inlineKinds]

end Inline

/-! ### Nodes of blocks -/

namespace Document

open Markdown (Block LineRange)
open Traced (Leaves)

/-- All of some nodes are anchored. -/
abbrev AllAnchored (nodes : List Node) : Prop := ∀ node ∈ nodes, node.Anchored

theorem allAnchored_nil : AllAnchored [] := List.forall_mem_nil _

theorem allAnchored_single {node : Node} (anchored : node.Anchored) : AllAnchored [node] :=
  List.forall_mem_singleton.mpr anchored

variable {locate : ParagraphLocator} {f : Fragment} {fold : Folder} {read : FragmentReader}

theorem inlineNodes_anchored (f : Fragment) (region : Region) :
    Leaves (fun nodes => ∀ node ∈ nodes, node.AnchoredInline) (inlineNodes f region) := by
  apply Traced.ends_ofExcept
  cases scanned : Inline.scan f.source region.1 region.2 with
  | error e =>
      trivial
  | ok nodes =>
      rw [Inline.eq_scanFrom_of_scan scanned]
      exact (Inline.scanFrom_scans _ _ _).anchored

theorem headingNode_anchored (locate : ParagraphLocator) (f : Fragment) (lines inner : LineRange)
    (depth : Nat) (atx : Bool) (content : Text) :
    Leaves Node.Anchored (headingNode locate f lines inner depth atx content) := by
  unfold headingNode
  apply Traced.ends_any.bind
  rintro (_ | region) -
  · exact Traced.ends_pure (Node.anchored_leaf (by simp))
  · exact (inlineNodes_anchored f region).map fun children inline =>
      Node.anchored_of_inline rfl (by simp) inline

theorem esmNode_anchored (f : Fragment) (start stop : Nat) : (esmNode f start stop).Anchored := by
  refine Node.anchored_of_span rfl (by simp) rfl fun child member => ?_
  obtain ⟨found, -, rfl⟩ := List.mem_map.mp member
  exact Node.anchored_leaf (by simp)

theorem paragraphNode_anchored (locate : ParagraphLocator) (f : Fragment) (outermost : Bool)
    (lines : LineRange) (content : Text) :
    Leaves Node.Anchored (paragraphNode locate f outermost lines content) := by
  unfold paragraphNode
  apply Traced.ends_any.bind
  rintro (_ | ⟨start, stop⟩) -
  · exact Traced.ends_pure (Node.anchored_leaf (by simp))
  · dsimp only
    split
    · exact Traced.ends_pure (esmNode_anchored f start stop)
    · exact (inlineNodes_anchored f _).map fun children inline =>
        Node.anchored_of_inline rfl (by simp) inline

theorem cellNode_anchored (f : Fragment) (region : Option Region) :
    Leaves Node.Anchored (cellNode f region) := by
  rcases region with _ | ⟨start, stop⟩
  · exact Traced.ends_pure (Node.anchored_leaf (by simp))
  · rw [cellNode]
    split
    · exact (inlineNodes_anchored f _).map fun children inline =>
        Node.anchored_of_inline rfl (by simp) inline
    · exact Traced.ends_pure (Node.anchored_leaf (by simp))

theorem rowNode_anchored (f : Fragment) (row : Markdown.TableRow) :
    Leaves Node.Anchored (rowNode f row) := by
  unfold rowNode
  exact (Traced.ends_mapM fun i _ => cellNode_anchored f _).map fun cells below =>
    Node.anchored_of_span rfl (by simp) rfl below

theorem labelNodes_anchored (f : Fragment) (line : Nat) :
    Leaves AllAnchored (labelNodes f line) := by
  unfold labelNodes
  split
  · exact Traced.ends_pure allAnchored_nil
  · exact (inlineNodes_anchored f _).map fun children inline =>
      List.forall_mem_singleton.mpr (Node.anchored_of_inline rfl (by simp) inline)

mutual

theorem blockNodes_anchored (folds : ∀ nodes, AllAnchored nodes → Leaves AllAnchored (fold nodes))
    (outermost : Bool) :
    (block : Block) → Leaves AllAnchored (blockNodes locate f fold outermost block)
  | .heading lines inner depth atx content => by
      rw [blockNodes]
      exact (headingNode_anchored locate f lines inner depth atx content).map fun node =>
        allAnchored_single
  | .paragraph lines tight content => by
      rw [blockNodes]
      exact (paragraphNode_anchored locate f outermost lines content).map fun node =>
        allAnchored_single
  | .blockquote lines children => by
      rw [blockNodes]
      exact (nodesOfBlocks_anchored folds false children).map fun nodes below =>
        allAnchored_single (Node.anchored_of_span rfl (by simp) rfl below)
  | .list lines start items => by
      rw [blockNodes]
      exact (nodesOfBlocks_anchored folds false items).map fun nodes below =>
        allAnchored_single (Node.anchored_of_span rfl (by simp) rfl below)
  | .item lines children => by
      rw [blockNodes]
      apply (nodesOfBlocks_anchored folds false children).bind
      intro nodes anchored
      exact (folds nodes anchored).map fun folded below =>
        allAnchored_single (Node.anchored_of_span rfl (by simp) rfl below)
  | .table lines alignments header rows => by
      rw [blockNodes]
      exact (Traced.ends_mapM fun row _ => rowNode_anchored f row).map fun nodes below =>
        allAnchored_single (Node.anchored_of_span rfl (by simp) rfl below)
  | .directive lines info children => by
      rw [blockNodes]
      apply (labelNodes_anchored f lines.first).bind
      intro label isLabel
      apply (nodesOfBlocks_anchored folds false children).bind
      intro nodes anchored
      exact (folds nodes anchored).map fun folded below => allAnchored_single
        (Node.anchored_of_span rfl (by simp) rfl (List.forall_mem_append.mpr ⟨isLabel, below⟩))
  | .frontMatter _ | .indentedCode _ _ | .fencedCode _ _ _ | .html _ _ | .thematicBreak _ => by
      rw [blockNodes]
      exact Traced.ends_pure (allAnchored_single (Node.anchored_leaf (by simp)))
  | .definition _ _ _ => by
      rw [blockNodes]
      exact Traced.ends_pure allAnchored_nil

theorem nodesOfBlocks_anchored
    (folds : ∀ nodes, AllAnchored nodes → Leaves AllAnchored (fold nodes)) (outermost : Bool) :
    (blocks : List Block) → Leaves AllAnchored (nodesOfBlocks locate f fold outermost blocks)
  | [] => by
      rw [nodesOfBlocks]
      exact Traced.ends_pure allAnchored_nil
  | block :: rest => by
      rw [nodesOfBlocks]
      apply (blockNodes_anchored folds outermost block).bind
      intro nodes first
      exact (nodesOfBlocks_anchored folds outermost rest).map fun others later =>
        List.forall_mem_append.mpr ⟨first, later⟩

end

/-! ### Elements and trees -/

theorem element?_anchored {source : Text} {node : Node} {rest : List Node}
    (reads : ∀ start stop, Leaves AllAnchored (read start stop))
    (folds : ∀ nodes, AllAnchored nodes → Leaves AllAnchored (fold nodes))
    (anchored : AllAnchored rest) :
    Leaves (fun found => ∀ element ∈ found, element.1.Anchored)
      (element? source read fold node rest) := by
  have element {tag : JsxTag} {span : Span} {children : List Node} {count : Nat}
      (below : AllAnchored children) :
      ∀ found ∈ some (Node.mk (tagInfo tag span) children, count), found.1.Anchored := by
    rintro found ⟨⟩
    exact Node.anchored_of_span rfl (by simp [tagInfo]) rfl below
  refine element?_ends_of (by simp) fun start stop tag html isTag => ?_
  refine ⟨element allAnchored_nil, fun isOpen => ⟨fun closing isClosing => ?_, ?_⟩⟩
  · exact (reads _ _).imp fun children below => element below
  · refine (reads _ _).imp fun before isBefore e isEnding => (reads _ _).imp fun after isAfter => ?_
    obtain ⟨piece, others, -, parts, -⟩ := ending?_among isEnding
    rw [parts] at anchored
    have between : AllAnchored e.between := (List.forall_mem_append.mp anchored).1
    have content : AllAnchored (before ++ e.between ++ after) :=
      List.forall_mem_append.mpr ⟨List.forall_mem_append.mpr ⟨isBefore, between⟩, isAfter⟩
    exact (folds _ content).imp fun children below => element below

theorem foldFrom_anchored {source : Text} {nodes : List Node}
    (reads : ∀ start stop, Leaves AllAnchored (read start stop))
    (folds : ∀ nodes, AllAnchored nodes → Leaves AllAnchored (fold nodes)) (skip : Nat)
    (anchored : AllAnchored nodes) : Leaves AllAnchored (foldFrom source read fold skip nodes) := by
  induction nodes generalizing skip with
  | nil =>
      exact Traced.ends_pure allAnchored_nil
  | cons node rest hypothesis =>
      obtain ⟨first, later⟩ := List.forall_mem_cons.mp anchored
      cases skip with
      | succ skip =>
          exact hypothesis skip later
      | zero =>
          rw [foldFrom]
          apply (element?_anchored reads folds later).bind
          rintro (_ | ⟨element, consumed⟩) found
          · exact (hypothesis 0 later).map fun kept below =>
              List.forall_mem_cons.mpr ⟨first, below⟩
          · exact (hypothesis consumed later).map fun kept below =>
              List.forall_mem_cons.mpr ⟨found _ rfl, below⟩

theorem fragmentNodes_anchored (locate : ParagraphLocator) (f : Fragment)
    (folds : ∀ nodes, AllAnchored nodes → Leaves AllAnchored (fold nodes)) :
    Leaves AllAnchored (fragmentNodes locate f fold) := by
  unfold fragmentNodes
  apply Traced.ends_any.bind
  intro blocks _
  exact (nodesOfBlocks_anchored folds true blocks).bind folds

theorem foldElements_anchored (locate : ParagraphLocator) (source : Text) (budget : Nat)
    (nodes : List Node) (anchored : AllAnchored nodes) :
    Leaves AllAnchored (foldElements locate source budget nodes) := by
  induction budget generalizing nodes with
  | zero =>
      exact Traced.ends_pure anchored
  | succ budget hypothesis =>
      rw [foldElements]
      refine foldFrom_anchored (fun start stop => ?_) hypothesis 0 anchored
      split
      · exact Traced.ends_pure allAnchored_nil
      · exact fragmentNodes_anchored locate _ hypothesis

theorem parseWith_anchored (locate : ParagraphLocator) (source : Text) :
    Leaves (fun root => root.kind = .root ∧ AllAnchored root.children)
      (parseWith locate source) := by
  unfold parseWith
  apply (fragmentNodes_anchored locate _ (foldElements_anchored locate source _)).bind
  intro children anchored
  exact (Traced.ends_log _).bind fun _ _ => Traced.ends_pure ⟨rfl, anchored⟩

/-- The nodes of a parsed tree are anchored. -/
theorem anchored_of_parse {source : Text} {root : Node}
    (parsed : (parse source).outcome.1 = .ok root) :
    root.kind = .root ∧ AllAnchored root.children := by
  have settled : Settles (fun root => root.kind = .root ∧ AllAnchored root.children)
      (fun _ => True) (parse source).outcome.1 :=
    parseWith_anchored Fragment.locateParagraph source []
  rw [parsed] at settled
  exact settled

end Document

end MdxLocalization
