import MdxLocalization.Document.Parsing
import MdxLocalization.Proofs.ElementRange
import MdxLocalization.Proofs.InlineCut
import MdxLocalization.Proofs.LineBreakMarkup
import MdxLocalization.Proofs.Splicing

/-!
# Values that stand in the source

Where the value of an attribute has a span, the span selects the value. The scanner of tags takes a
value from what is left of its region and reckons the span from its length, and both agree because
what is left of a region stands at the end of it.

Parsing hands attributes on as they were scanned, in fragments of fragments too. So what is true of
the facts of tags, of front matter and of nodes without attributes is true of all nodes of a tree.
-/

namespace MdxLocalization

/-- The value of an attribute, where it has a span, stands there. -/
def JsxAttribute.Literal (source : Text) (a : JsxAttribute) : Prop :=
  ∀ span, a.valueSpan = some span → span.slice source = a.value

/-! ### Scanning a tag -/

namespace Jsx

variable {source t rest body name : Text} {stop : Nat} {a : JsxAttribute}

/-- What stands between quotes is the value, and its span starts where what is left of the region
does. -/
theorem readValue_literal {quote : Char} (stands : source.StandsAt body (stop - body.length))
    (found : readValue stop name t quote body = .found (a, rest)) : a.Literal source := by
  unfold readValue at found
  dsimp only at found
  split at found
  · split at found
    · cases found
    · rename_i length closing
      have inside := Text.findChar?_lt_length closing
      cases found
      rintro span ⟨⟩
      have selected := (stands.take length).slice_eq
      rw [List.length_take_of_le (Nat.le_of_lt inside)] at selected
      rw [Span.slice, Span.ofNats, Text.window_eq_slice]
      exact selected
  · split at found
    · split at found
      · cases found
        rintro span ⟨⟩
      · cases found
      · cases found
    · cases found

theorem readAttribute_literal (stands : source.StandsAt t (stop - t.length))
    (inside : t.length ≤ stop) (found : readAttribute stop t = .found (a, rest)) :
    a.Literal source := by
  cases t with
  | nil =>
      cases found
  | cons c others =>
      cases starts : isAttributeStart c with
      | false =>
          rw [readAttribute, starts] at found
          cases found
      | true =>
          cases behind : others.dropWhile isAttributeRest with
          | nil =>
              rw [readAttribute_unfinished starts (by simp [behind])] at found
              cases found
          | cons d tail =>
              by_cases assigned : d = '='
              · subst assigned
                cases tail with
                | nil =>
                    rw [readAttribute_unfinished starts (by simp [behind])] at found
                    cases found
                | cons quote body =>
                    rw [readAttribute_assigned starts behind] at found
                    have left : body <:+ c :: others := by
                      have named : '=' :: quote :: body <:+ others :=
                        behind ▸ List.dropWhile_suffix isAttributeRest
                      exact ((List.suffix_append ['=', quote] body).trans named).trans
                        (List.suffix_cons c others)
                    have place := stands.suffix left
                    rw [Nat.sub_add_cancel inside] at place
                    exact readValue_literal place found
              · rw [readAttribute_bare starts assigned behind] at found
                cases found
                rintro span ⟨⟩

/-- The attributes that are read from what is left of a region stand in the source. -/
theorem tagBody_literal {following : Option Char} {start budget : Nat}
    {attributes : List JsxAttribute} {tag : JsxTag}
    (stands : source.StandsAt t (stop - t.length)) (inside : t.length ≤ stop)
    (before : ∀ a ∈ attributes, a.Literal source)
    (found : tagBody following start stop name budget attributes t = .found tag) :
    ∀ a ∈ tag.attributes, a.Literal source := by
  induction budget generalizing attributes t with
  | zero =>
      cases found
  | succ budget hypothesis =>
      have reversed : ∀ a ∈ attributes.reverse, a.Literal source :=
        fun a member => before a (List.mem_reverse.mp member)
      -- What is left of the region after any further step stands behind it.
      have left : ∀ {rest : Text}, rest <:+ t →
          source.StandsAt rest (stop - rest.length) ∧ rest.length ≤ stop := by
        intro rest part
        have place := stands.suffix part
        rw [Nat.sub_add_cancel inside] at place
        exact ⟨place, Nat.le_trans part.length_le inside⟩
      have solid : t.dropWhile Text.isBlank <:+ t := List.dropWhile_suffix _
      rw [tagBody] at found
      split at found
      · cases found
      · cases found
        exact reversed
      · split at found
        · cases found
          exact reversed
        · cases found
      · cases found
        exact reversed
      · split at found
        · rename_i rest braces
          have part := (suffix_of_afterBraces braces).trans ((List.tail_suffix _).trans solid)
          exact hypothesis (left part).1 (left part).2 before found
        · cases found
        · cases found
      · split at found
        · rename_i a rest isRead
          have part := (suffix_of_readAttribute isRead).1.trans solid
          have literal := readAttribute_literal (left solid).1 (left solid).2 isRead
          exact hypothesis (left part).1 (left part).2
            (List.forall_mem_cons.mpr ⟨literal, before⟩) found
        · cases found
        · cases found

theorem readTag?_literal {start stop : Nat} {tag : JsxTag}
    (found : readTag? source start stop = some tag) : ∀ a ∈ tag.attributes, a.Literal source := by
  have region : readRegion source start stop = .found tag := by
    unfold readTag? at found
    split at found
    · rename_i outcome
      cases found
      exact outcome
    · cases found
    · cases found
  unfold readRegion at region
  dsimp only at region
  split at region
  · cases region
  · rename_i name named
    have within : start ≤ source.length := by
      by_contra past
      have empty : Text.slice source start stop = [] := by
        rw [Text.slice, List.drop_of_length_le (by omega), List.take_nil]
      rw [empty] at named
      cases named
    have stands : source.StandsAt (Text.slice source start stop) start :=
      Text.standsAt_slice within
    have part := List.drop_suffix (name.length + 1) (Text.slice source start stop)
    refine tagBody_literal (stands.suffix part) ?_ (List.forall_mem_nil _) region
    exact Nat.le_trans part.length_le (Nat.le_add_left _ _)

end Jsx

/-! ### Parsing -/

namespace Document

open Markdown (Block LineRange)
open Traced (Leaves)

/-- A property of facts that parsing keeps: nodes without attributes have it, apart from front
matter, and so do front matter and elements whose tags were scanned. -/
structure Inherent (source : Text) (holds : NodeInfo → Prop) : Prop where
  plain : ∀ info, info.kind ≠ .yaml → info.attributes = [] → holds info
  frontMatter : ∀ (f : Fragment) lines, f.source = source → holds (frontMatterNode f lines).info
  element : ∀ start stop tag span, Jsx.readTag? source start stop = some tag →
    holds (tagInfo tag span)

/-- A property of the facts of all nodes in some trees. -/
abbrev AllEvery (holds : NodeInfo → Prop) (nodes : List Node) : Prop :=
  ∀ node ∈ nodes, node.Every holds

variable {source : Text} {holds : NodeInfo → Prop} {locate : ParagraphLocator} {f : Fragment}
  {fold : Folder} {read : FragmentReader}

theorem Inherent.leaf (inherent : Inherent source holds) {info : NodeInfo}
    (noFrontMatter : info.kind ≠ .yaml) (bare : info.attributes = []) :
    Node.Every holds (.mk info []) :=
  .mk (inherent.plain info noFrontMatter bare) (List.forall_mem_nil _)

theorem allEvery_single {node : Node} (every : node.Every holds) : AllEvery holds [node] :=
  List.forall_mem_singleton.mpr every

section Scanning

open Inline

theorem Inherent.flush (inherent : Inherent source holds) (position : Nat) (pending : Text) :
    AllEvery holds (Inline.flush position pending) := by
  unfold Inline.flush
  split
  · exact List.forall_mem_nil _
  · exact allEvery_single (inherent.leaf (by simp) rfl)

theorem Inherent.scans (inherent : Inherent source holds) {position : Nat} {pending t : Text}
    {nodes : List Node} (scans : Scans position pending t nodes) : AllEvery holds nodes := by
  have joined {position : Nat} {pending : Text} {node : Node} {nodes : List Node}
      (first : node.Every holds) (later : AllEvery holds nodes) :
      AllEvery holds (Inline.flush position pending ++ node :: nodes) :=
    List.forall_mem_append.mpr
      ⟨inherent.flush position pending, List.forall_mem_cons.mpr ⟨first, later⟩⟩
  induction scans with
  | stops =>
      exact inherent.flush _ _
  | collects count fits further hypothesis =>
      exact hypothesis
  | code found further hypothesis =>
      exact joined (inherent.leaf (by simp) rfl) hypothesis
  | image found further hypothesis =>
      exact joined (inherent.leaf (by simp) rfl) hypothesis
  | link found label further labelHypothesis hypothesis =>
      exact joined (.mk (inherent.plain _ (by simp [linkInfo]) rfl) labelHypothesis) hypothesis

end Scanning

section Nodes

variable (inherent : Inherent source holds)

include inherent

theorem inlineNodes_every (f : Fragment) (region : Region) :
    Leaves (AllEvery holds) (inlineNodes f region) := by
  apply Traced.ends_ofExcept
  cases scanned : Inline.scan f.source region.1 region.2 with
  | error e =>
      trivial
  | ok nodes =>
      rw [Inline.eq_scanFrom_of_scan scanned]
      exact inherent.scans (Inline.scanFrom_scans _ _ _)

/-- A node of one of the kinds without attributes, around some inline nodes. -/
theorem inlineNodes_every_around (f : Fragment) (region : Region) {info : NodeInfo}
    (noFrontMatter : info.kind ≠ .yaml) (bare : info.attributes = []) :
    Leaves (Node.Every holds) (return .mk info (← inlineNodes f region)) :=
  (inlineNodes_every inherent f region).map fun _ below =>
    .mk (inherent.plain info noFrontMatter bare) below

theorem headingNode_every (locate : ParagraphLocator) (f : Fragment) (lines inner : LineRange)
    (depth : Nat) (atx : Bool) (content : Text) :
    Leaves (Node.Every holds) (headingNode locate f lines inner depth atx content) := by
  unfold headingNode
  apply Traced.ends_any.bind
  rintro (_ | region) -
  · exact Traced.ends_pure (inherent.leaf (by simp) rfl)
  · exact inlineNodes_every_around inherent f region (by simp) rfl

theorem paragraphNode_every (locate : ParagraphLocator) (f : Fragment) (outermost : Bool)
    (lines : LineRange) (content : Text) :
    Leaves (Node.Every holds) (paragraphNode locate f outermost lines content) := by
  unfold paragraphNode
  apply Traced.ends_any.bind
  rintro (_ | ⟨start, stop⟩) -
  · exact Traced.ends_pure (inherent.leaf (by simp) rfl)
  · dsimp only
    split
    · refine Traced.ends_pure (.mk (inherent.plain _ (by simp) rfl) fun child member => ?_)
      obtain ⟨found, -, rfl⟩ := List.mem_map.mp member
      exact inherent.leaf (by simp) rfl
    · exact inlineNodes_every_around inherent f _ (by simp) rfl

theorem rowNode_every (f : Fragment) (row : Markdown.TableRow) :
    Leaves (Node.Every holds) (rowNode f row) := by
  have cell (region : Option Region) : Leaves (Node.Every holds) (cellNode f region) := by
    rcases region with _ | ⟨start, stop⟩
    · exact Traced.ends_pure (inherent.leaf (by simp) rfl)
    · rw [cellNode]
      split
      · exact inlineNodes_every_around inherent f _ (by simp) rfl
      · exact Traced.ends_pure (inherent.leaf (by simp) rfl)
  unfold rowNode
  exact (Traced.ends_mapM fun i _ => cell _).map fun cells below =>
    .mk (inherent.plain _ (by simp) rfl) below

theorem labelNodes_every (f : Fragment) (line : Nat) :
    Leaves (AllEvery holds) (labelNodes f line) := by
  unfold labelNodes
  split
  · exact Traced.ends_pure (List.forall_mem_nil _)
  · exact (inlineNodes_every inherent f _).map fun children below =>
      allEvery_single (.mk (inherent.plain _ (by simp) rfl) below)

end Nodes

mutual

theorem blockNodes_every (inherent : Inherent source holds) (sourceOf : f.source = source)
    (folds : ∀ nodes, AllEvery holds nodes → Leaves (AllEvery holds) (fold nodes))
    (outermost : Bool) :
    (block : Block) → Leaves (AllEvery holds) (blockNodes locate f fold outermost block)
  | .frontMatter lines => by
      rw [blockNodes]
      exact Traced.ends_pure (allEvery_single
        (.mk (inherent.frontMatter f lines sourceOf) (List.forall_mem_nil _)))
  | .heading lines inner depth atx content => by
      rw [blockNodes]
      exact (headingNode_every inherent locate f lines inner depth atx content).map fun node =>
        allEvery_single
  | .paragraph lines tight content => by
      rw [blockNodes]
      exact (paragraphNode_every inherent locate f outermost lines content).map fun node =>
        allEvery_single
  | .blockquote lines children => by
      rw [blockNodes]
      exact (nodesOfBlocks_every inherent sourceOf folds false children).map fun nodes below =>
        allEvery_single (.mk (inherent.plain _ (by simp) rfl) below)
  | .list lines start items => by
      rw [blockNodes]
      exact (nodesOfBlocks_every inherent sourceOf folds false items).map fun nodes below =>
        allEvery_single (.mk (inherent.plain _ (by simp) rfl) below)
  | .item lines children => by
      rw [blockNodes]
      apply (nodesOfBlocks_every inherent sourceOf folds false children).bind
      intro nodes every
      exact (folds nodes every).map fun folded below =>
        allEvery_single (.mk (inherent.plain _ (by simp) rfl) below)
  | .table lines alignments header rows => by
      rw [blockNodes]
      exact (Traced.ends_mapM fun row _ => rowNode_every inherent f row).map fun nodes below =>
        allEvery_single (.mk (inherent.plain _ (by simp) rfl) below)
  | .directive lines info children => by
      rw [blockNodes]
      apply (labelNodes_every inherent f lines.first).bind
      intro label isLabel
      apply (nodesOfBlocks_every inherent sourceOf folds false children).bind
      intro nodes every
      exact (folds nodes every).map fun folded below => allEvery_single
        (.mk (inherent.plain _ (by simp) rfl) (List.forall_mem_append.mpr ⟨isLabel, below⟩))
  | .indentedCode _ _ | .fencedCode _ _ _ | .html _ _ | .thematicBreak _ => by
      rw [blockNodes]
      exact Traced.ends_pure (allEvery_single (inherent.leaf (by simp) rfl))
  | .definition _ _ _ => by
      rw [blockNodes]
      exact Traced.ends_pure (List.forall_mem_nil _)

theorem nodesOfBlocks_every (inherent : Inherent source holds) (sourceOf : f.source = source)
    (folds : ∀ nodes, AllEvery holds nodes → Leaves (AllEvery holds) (fold nodes))
    (outermost : Bool) :
    (blocks : List Block) → Leaves (AllEvery holds) (nodesOfBlocks locate f fold outermost blocks)
  | [] => by
      rw [nodesOfBlocks]
      exact Traced.ends_pure (List.forall_mem_nil _)
  | block :: rest => by
      rw [nodesOfBlocks]
      apply (blockNodes_every inherent sourceOf folds outermost block).bind
      intro nodes first
      exact (nodesOfBlocks_every inherent sourceOf folds outermost rest).map fun others later =>
        List.forall_mem_append.mpr ⟨first, later⟩

end

section Elements

variable (inherent : Inherent source holds)

include inherent

theorem element?_every {node : Node} {rest : List Node}
    (reads : ∀ start stop, Leaves (AllEvery holds) (read start stop))
    (folds : ∀ nodes, AllEvery holds nodes → Leaves (AllEvery holds) (fold nodes))
    (every : AllEvery holds rest) :
    Leaves (fun found => ∀ element ∈ found, element.1.Every holds)
      (element? source read fold node rest) := by
  refine element?_ends_of (by simp) fun start stop tag html isTag => ?_
  have element {span : Span} {children : List Node} {count : Nat}
      (below : AllEvery holds children) :
      ∀ found ∈ some (Node.mk (tagInfo tag span) children, count), found.1.Every holds := by
    rintro found ⟨⟩
    exact .mk (inherent.element start stop tag span isTag) below
  refine ⟨element (List.forall_mem_nil _), fun isOpen => ⟨fun closing isClosing => ?_, ?_⟩⟩
  · exact (reads _ _).imp fun children below => element below
  · refine (reads _ _).imp fun before isBefore e isEnding => (reads _ _).imp fun after isAfter => ?_
    obtain ⟨piece, others, -, parts, -⟩ := ending?_among isEnding
    rw [parts] at every
    have between : AllEvery holds e.between := (List.forall_mem_append.mp every).1
    have content : AllEvery holds (before ++ e.between ++ after) :=
      List.forall_mem_append.mpr ⟨List.forall_mem_append.mpr ⟨isBefore, between⟩, isAfter⟩
    exact (folds _ content).imp fun children below => element below

theorem foldFrom_every {nodes : List Node}
    (reads : ∀ start stop, Leaves (AllEvery holds) (read start stop))
    (folds : ∀ nodes, AllEvery holds nodes → Leaves (AllEvery holds) (fold nodes)) (skip : Nat)
    (every : AllEvery holds nodes) :
    Leaves (AllEvery holds) (foldFrom source read fold skip nodes) := by
  induction nodes generalizing skip with
  | nil =>
      exact Traced.ends_pure (List.forall_mem_nil _)
  | cons node rest hypothesis =>
      obtain ⟨first, later⟩ := List.forall_mem_cons.mp every
      cases skip with
      | succ skip =>
          exact hypothesis skip later
      | zero =>
          rw [foldFrom]
          apply (element?_every inherent reads folds later).bind
          rintro (_ | ⟨element, consumed⟩) found
          · exact (hypothesis 0 later).map fun kept below =>
              List.forall_mem_cons.mpr ⟨first, below⟩
          · exact (hypothesis consumed later).map fun kept below =>
              List.forall_mem_cons.mpr ⟨found _ rfl, below⟩

theorem fragmentNodes_every (locate : ParagraphLocator) (sourceOf : f.source = source)
    (folds : ∀ nodes, AllEvery holds nodes → Leaves (AllEvery holds) (fold nodes)) :
    Leaves (AllEvery holds) (fragmentNodes locate f fold) := by
  unfold fragmentNodes
  apply Traced.ends_any.bind
  intro blocks _
  exact (nodesOfBlocks_every inherent sourceOf folds true blocks).bind folds

theorem foldElements_every (locate : ParagraphLocator) (budget : Nat) (nodes : List Node)
    (every : AllEvery holds nodes) :
    Leaves (AllEvery holds) (foldElements locate source budget nodes) := by
  induction budget generalizing nodes with
  | zero =>
      exact Traced.ends_pure every
  | succ budget hypothesis =>
      rw [foldElements]
      refine foldFrom_every inherent (fun start stop => ?_) hypothesis 0 every
      split
      · exact Traced.ends_pure (List.forall_mem_nil _)
      · exact fragmentNodes_every inherent locate rfl hypothesis

/-- What is inherent to facts is true of all nodes of a parsed tree. -/
theorem every_of_parse {root : Node} (parsed : (parse source).outcome.1 = .ok root) :
    root.Every holds := by
  have ends : Leaves (Node.Every holds) (parseWith Fragment.locateParagraph source) := by
    unfold parseWith
    apply (fragmentNodes_every inherent _ rfl (foldElements_every inherent _ _)).bind
    intro children below
    exact (Traced.ends_log _).bind fun _ _ =>
      Traced.ends_pure (.mk (inherent.plain _ (by simp) rfl) below)
  have settled : Settles (Node.Every holds) (fun _ => True) (parse source).outcome.1 := ends []
  rw [parsed] at settled
  exact settled

end Elements

end Document

end MdxLocalization
