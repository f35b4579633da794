import MdxLocalization.Proofs.Collision
import MdxLocalization.Tree.Node

/-!
# Where nodes and changes stand

A tree is well positioned for a source when the spans of its nodes nest as the nodes do. Changes
that come out of a part of such a tree stand within the span of the part, and those of neighbouring
parts follow one another; `Patch.Within` is the form in which this is carried through the survey of
a document.
-/

namespace MdxLocalization

/-! ### Well-positioned trees -/

/-- The children of a node that starts at `lower` and stops at `upper` have spans of their own, each
within these bounds and none before the end of the one before it. -/
def Node.Spaced (lower upper : Int) : List Node → Prop
  | [] => lower ≤ upper
  | child :: rest =>
    ∃ span, child.span = some span ∧ lower ≤ span.start ∧ span.start ≤ span.stop ∧
      Node.Spaced span.stop upper rest

theorem Node.spaced_nil {lower upper : Int} (inOrder : lower ≤ upper) : Spaced lower upper [] :=
  inOrder

/-- The values of the attributes of an element stand in its span and before its first child. A value
that is not empty has a span that is not empty. -/
def NodeInfo.AttributesPlaced (info : NodeInfo) (span : Span) (children : List Node) : Prop :=
  ∀ a ∈ info.attributes, ∀ value, a.valueSpan = some value →
    span.start ≤ value.start ∧ value.stop ≤ span.stop ∧
      (∀ first ∈ children.head?, ∀ next, first.span = some next → value.stop ≤ next.start) ∧
      (a.value ≠ [] → value.start < value.stop)

/-- The label of a directive has something between its brackets. -/
def Node.LabelFilled (node : Node) : Prop :=
  node.info.flag "directiveLabel" = true → ∀ span, node.span = some span → 3 ≤ span.length

/-- A tree is well positioned for a source of `length` characters: each node has a span there, and
its attributes and its children stand in this span, one after the other. -/
inductive Node.WellPositioned (length : Nat) : Node → Prop where
  | mk {info : NodeInfo} {children : List Node} {span : Span} (placed : info.span = some span)
      (proper : 0 ≤ span.start ∧ span.start ≤ span.stop ∧ span.stop ≤ length)
      (spaced : Spaced span.start span.stop children)
      (attributes : info.AttributesPlaced span children)
      (labels : ∀ child ∈ children, child.LabelFilled)
      (below : ∀ child ∈ children, WellPositioned length child) :
      WellPositioned length (.mk info children)

theorem Node.wellPositioned_leaf {length : Nat} {info : NodeInfo} {span : Span}
    (placed : info.span = some span)
    (proper : 0 ≤ span.start ∧ span.start ≤ span.stop ∧ span.stop ≤ length)
    (bare : info.attributes = []) : WellPositioned length (.mk info []) :=
  .mk placed proper proper.2.1 (by simp [NodeInfo.AttributesPlaced, bare]) (by simp) (by simp)

theorem Node.Spaced.mono {lower lower' upper : Int} {children : List Node}
    (spaced : Spaced lower upper children) (less : lower' ≤ lower) :
    Spaced lower' upper children := by
  cases children with
  | nil =>
      exact Int.le_trans less spaced
  | cons child rest =>
      obtain ⟨span, placed, after, proper, others⟩ := spaced
      exact ⟨span, placed, Int.le_trans less after, proper, others⟩

theorem Node.Spaced.of_head {lower middle upper : Int} {children : List Node}
    (spaced : Spaced lower upper children) (inside : middle ≤ upper)
    (before : ∀ first ∈ children.head?, ∀ next, first.span = some next → middle ≤ next.start) :
    Spaced middle upper children := by
  cases children with
  | nil =>
      exact inside
  | cons child rest =>
      obtain ⟨span, placed, -, proper, others⟩ := spaced
      exact ⟨span, placed, before child rfl span placed, proper, others⟩

theorem Node.Spaced.le {lower upper : Int} {children : List Node}
    (spaced : Spaced lower upper children) : lower ≤ upper := by
  induction children generalizing lower with
  | nil =>
      exact spaced
  | cons child rest hypothesis =>
      obtain ⟨span, -, after, proper, others⟩ := spaced
      have := hypothesis others
      omega

/-! ### Changes between two positions -/

namespace Patch

/-- Changes that are in order, none of them empty, between two positions. -/
def Within (lower upper : Int) (changes : List Change) : Prop :=
  InOrder changes ∧ ∀ c ∈ changes, lower ≤ c.span.start ∧ c.span.start < c.span.stop ∧
    c.span.stop ≤ upper

theorem within_nil (lower upper : Int) : Within lower upper [] :=
  ⟨List.Pairwise.nil, by simp⟩

theorem within_single {lower upper : Int} {c : Change} (after : lower ≤ c.span.start)
    (proper : c.span.start < c.span.stop) (before : c.span.stop ≤ upper) :
    Within lower upper [c] :=
  ⟨List.pairwise_singleton _ _, by simp [after, proper, before]⟩

theorem Within.mono {lower lower' upper upper' : Int} {changes : List Change}
    (within : Within lower upper changes) (less : lower' ≤ lower) (more : upper ≤ upper') :
    Within lower' upper' changes := by
  refine ⟨within.1, ?_⟩
  intro c member
  have bounds := within.2 c member
  omega

theorem Within.append {lower middle upper : Int} {changes others : List Change}
    (first : Within lower middle changes) (second : Within middle upper others)
    (lowerLe : lower ≤ middle) (leUpper : middle ≤ upper) :
    Within lower upper (changes ++ others) := by
  refine ⟨List.pairwise_append.mpr ⟨first.1, second.1, ?_⟩, ?_⟩
  · intro a inFirst b inSecond
    have before := first.2 a inFirst
    have after := second.2 b inSecond
    omega
  · intro c member
    rcases List.mem_append.mp member with inFirst | inSecond
    · have bounds := first.2 c inFirst
      omega
    · have bounds := second.2 c inSecond
      omega

end Patch

end MdxLocalization
