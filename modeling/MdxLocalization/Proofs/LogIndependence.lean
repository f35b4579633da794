import MdxLocalization.Document.Parsing
import MdxLocalization.Page.Context
import MdxLocalization.Proofs.TracedOutcome

/-!
# What is logged does not matter

A computation that never looks at the events gives the same whatever has been logged before. Parsing
a document and writing its page are of this kind, so that what comes of a document does not depend on
the documents before it.
-/

namespace MdxLocalization

namespace Traced

variable {ε α β γ : Type}

/-- A computation gives the same whatever has been logged before. -/
def Steady (x : Traced ε α) : Prop := ∀ events events', (x events).1 = (x events').1

theorem steady_pure (a : α) : Steady (pure a : Traced ε α) := fun _ _ => rfl

theorem steady_log (e : LogEvent) : Steady (log e : Traced ε Unit) := fun _ _ => rfl

theorem steady_ofExcept (x : Except ε α) : Steady (ofExcept x) := by
  intro events events'
  cases x <;> rfl

theorem Steady.bind {x : Traced ε α} {f : α → Traced ε β} (first : Steady x)
    (rest : ∀ a, Steady (f a)) : Steady (x >>= f) := by
  intro events events'
  rw [bind_apply, bind_apply]
  have same := first events events'
  cases outcome : x events with
  | mk result after =>
      cases outcome' : x events' with
      | mk result' after' =>
          rw [outcome, outcome'] at same
          cases same
          cases result with
          | ok a =>
              exact rest a after after'
          | error e =>
              rfl

theorem Steady.map {x : Traced ε α} (first : Steady x) (f : α → β) :
    Steady (x >>= fun a => pure (f a)) :=
  first.bind fun a => steady_pure (f a)

theorem steady_mapM {f : γ → Traced ε α} {inputs : List γ}
    (each : ∀ input ∈ inputs, Steady (f input)) : Steady (inputs.mapM f) := by
  induction inputs with
  | nil =>
      rw [List.mapM_nil]
      exact steady_pure []
  | cons input rest hypothesis =>
      obtain ⟨first, later⟩ := List.forall_mem_cons.mp each
      rw [List.mapM_cons]
      exact first.bind fun a => (hypothesis later).map fun results => a :: results

end Traced

namespace Document

open Markdown (Block)
open Traced (Steady steady_pure steady_log steady_ofExcept steady_mapM)

variable {source : Text} {read : FragmentReader} {fold : Folder} {locate : ParagraphLocator}

theorem element?_steady (reads : ∀ start stop, Steady (read start stop))
    (folds : ∀ nodes, Steady (fold nodes)) (node : Node) (rest : List Node) :
    Steady (element? source read fold node rest) := by
  unfold element?
  cases htmlRegion? node with
  | none =>
      exact steady_pure none
  | some region =>
      obtain ⟨start, stop⟩ := region
      dsimp only
      cases Jsx.readTag? source start stop with
      | none =>
          exact steady_pure none
      | some tag =>
          dsimp only
          split
          · exact steady_pure _
          · cases closingTagIn? source tag.name tag.span.stop.toNat stop with
            | some closing =>
                exact (reads _ _).map _
            | none =>
                refine (reads _ _).bind fun before => ?_
                cases ending? source tag.name 0 rest with
                | none =>
                    exact (steady_log _).map _
                | some e =>
                    exact (reads _ _).bind fun after => (folds _).map _

theorem foldFrom_steady (reads : ∀ start stop, Steady (read start stop))
    (folds : ∀ nodes, Steady (fold nodes)) (skip : Nat) (nodes : List Node) :
    Steady (foldFrom source read fold skip nodes) := by
  induction nodes generalizing skip with
  | nil =>
      exact steady_pure []
  | cons node rest hypothesis =>
      cases skip with
      | succ skip =>
          exact hypothesis skip
      | zero =>
          rw [foldFrom]
          refine (element?_steady reads folds node rest).bind fun found => ?_
          cases found with
          | none =>
              exact (hypothesis 0).map _
          | some result =>
              exact (hypothesis result.2).map _

theorem locateParagraph_steady (f : Fragment) (lines : Markdown.LineRange) (content : Text) :
    Steady (f.locateParagraph lines content : Traced ParseError (Option Region)) := by
  unfold Fragment.locateParagraph
  split
  · exact steady_pure none
  · dsimp only
    split
    · exact (steady_log _).map _
    · exact steady_pure _

theorem headingNode_steady (locates : ∀ f lines content, Steady (locate f lines content))
    (f : Fragment) (lines inner : Markdown.LineRange) (depth : Nat) (atx : Bool) (content : Text) :
    Steady (headingNode locate f lines inner depth atx content) := by
  have located : Steady (headingRegion locate f lines inner atx content) := by
    unfold headingRegion
    split
    · exact steady_pure _
    · exact locates f inner content
  unfold headingNode
  refine located.bind fun region => ?_
  cases region with
  | none =>
      exact steady_pure _
  | some region =>
      exact (steady_ofExcept _).map _

theorem paragraphNode_steady (locates : ∀ f lines content, Steady (locate f lines content))
    (f : Fragment) (outermost : Bool) (lines : Markdown.LineRange) (content : Text) :
    Steady (paragraphNode locate f outermost lines content) := by
  unfold paragraphNode
  refine (locates f lines content).bind fun region => ?_
  cases region with
  | none =>
      exact steady_pure _
  | some region =>
      obtain ⟨start, stop⟩ := region
      dsimp only
      split
      · exact steady_pure _
      · exact (steady_ofExcept _).map _

theorem rowNode_steady (f : Fragment) (row : Markdown.TableRow) : Steady (rowNode f row) := by
  have cell (region : Option Region) : Steady (cellNode f region) := by
    unfold cellNode
    split
    · split
      · exact (steady_ofExcept _).map _
      · exact steady_pure _
    · exact steady_pure _
  unfold rowNode
  exact (steady_mapM fun i _ => cell _).map _

theorem labelNodes_steady (f : Fragment) (line : Nat) : Steady (labelNodes f line) := by
  unfold labelNodes
  split
  · exact steady_pure []
  · exact (steady_ofExcept _).map _

mutual

theorem blockNodes_steady (locates : ∀ f lines content, Steady (locate f lines content))
    (f : Fragment) (folds : ∀ nodes, Steady (fold nodes)) (outermost : Bool) :
    (block : Block) → Steady (blockNodes locate f fold outermost block)
  | .heading lines inner depth atx content => by
      rw [blockNodes]
      exact (headingNode_steady locates f lines inner depth atx content).map _
  | .paragraph lines tight content => by
      rw [blockNodes]
      exact (paragraphNode_steady locates f outermost lines content).map _
  | .blockquote lines children => by
      rw [blockNodes]
      exact (nodesOfBlocks_steady locates f folds false children).map _
  | .list lines start items => by
      rw [blockNodes]
      exact (nodesOfBlocks_steady locates f folds false items).map _
  | .item lines children => by
      rw [blockNodes]
      exact (nodesOfBlocks_steady locates f folds false children).bind fun nodes =>
        (folds nodes).map _
  | .table lines _ header rows => by
      rw [blockNodes]
      exact (steady_mapM fun row _ => rowNode_steady f row).map _
  | .directive lines info children => by
      rw [blockNodes]
      refine (labelNodes_steady f lines.first).bind fun label => ?_
      exact (nodesOfBlocks_steady locates f folds false children).bind fun nodes =>
        (folds nodes).map _
  | .frontMatter _ | .indentedCode _ _ | .fencedCode _ _ _ | .html _ _ | .thematicBreak _
  | .definition _ _ _ => by
      rw [blockNodes]
      exact steady_pure _

theorem nodesOfBlocks_steady (locates : ∀ f lines content, Steady (locate f lines content))
    (f : Fragment) (folds : ∀ nodes, Steady (fold nodes)) (outermost : Bool) :
    (blocks : List Block) → Steady (nodesOfBlocks locate f fold outermost blocks)
  | [] => by
      rw [nodesOfBlocks]
      exact steady_pure []
  | block :: rest => by
      rw [nodesOfBlocks]
      exact (blockNodes_steady locates f folds outermost block).bind fun nodes =>
        (nodesOfBlocks_steady locates f folds outermost rest).map _

end

theorem fragmentNodes_steady (locates : ∀ f lines content, Steady (locate f lines content))
    (f : Fragment) (folds : ∀ nodes, Steady (fold nodes)) :
    Steady (fragmentNodes locate f fold) := by
  unfold fragmentNodes
  exact (steady_ofExcept _).bind fun blocks =>
    (nodesOfBlocks_steady locates f folds true blocks).bind folds

theorem foldElements_steady (locates : ∀ f lines content, Steady (locate f lines content))
    (source : Text) (budget : Nat) (nodes : List Node) :
    Steady (foldElements locate source budget nodes) := by
  induction budget generalizing nodes with
  | zero =>
      exact steady_pure nodes
  | succ budget hypothesis =>
      rw [foldElements]
      refine foldFrom_steady (fun start stop => ?_) hypothesis 0 nodes
      split
      · exact steady_pure []
      · exact fragmentNodes_steady locates _ hypothesis

theorem parse_steady (source : Text) : Steady (parse source) := by
  unfold parse parseWith
  refine (fragmentNodes_steady locateParagraph_steady _
    (foldElements_steady locateParagraph_steady source _)).bind fun children => ?_
  exact (steady_log _).map _

end Document

theorem Page.context_steady (source title lang : Text) : (Page.context source title lang).Steady := by
  unfold Page.context
  exact (Traced.steady_ofExcept _).bind fun blocks => (Traced.steady_log _).map _

end MdxLocalization
