import Mathlib.Data.List.Forall2
import MdxLocalization.Proofs.InlineTiling
import MdxLocalization.Tree.Node

/-!
# Trees that nest

A tree nests when every node lies in the span of its parent and siblings follow one another without
overlapping. Nodes without a span, such as an empty paragraph, are passed over; what they hold has
to nest as well.

Parsing finds spans from offsets, so siblings are mostly known to stand between two offsets. Scanned
content tiles its region and therefore nests.
-/

namespace MdxLocalization

/-! ### Nesting -/

/-- Where both nodes have a span, the first one stops before the second one starts. -/
def Node.Before (node other : Node) : Prop :=
  ∀ s ∈ node.span, ∀ t ∈ other.span, s.stop ≤ t.start

/-- Spans have their ends in order, children lie in the span of their parent, and siblings follow
one another. -/
inductive Node.Nests : Node → Prop where
  | mk {info : NodeInfo} {children : List Node} (proper : ∀ s ∈ info.span, s.start ≤ s.stop)
      (inside : ∀ s ∈ info.span, ∀ child ∈ children, ∀ t ∈ child.span,
        s.start ≤ t.start ∧ t.stop ≤ s.stop)
      (inOrder : children.Pairwise Before) (below : ∀ child ∈ children, Nests child) :
      Nests (.mk info children)

theorem Node.Nests.of_mem {node child : Node} (nests : node.Nests)
    (member : child ∈ node.children) : child.Nests := by
  obtain ⟨-, -, -, below⟩ := nests
  exact below child member

theorem Node.Nests.bounds {node child : Node} {s t : Span} (nests : node.Nests)
    (outer : node.span = some s) (member : child ∈ node.children) (inner : child.span = some t) :
    s.start ≤ t.start ∧ t.stop ≤ s.stop := by
  obtain ⟨-, inside, -, -⟩ := nests
  exact inside s outer child member t inner

/-- A node without a span, or one that stands between two offsets. -/
def Node.Between (lower upper : Nat) (node : Node) : Prop :=
  ∀ s ∈ node.span, ∃ start stop,
    s = Span.ofNats start stop ∧ lower ≤ start ∧ start ≤ stop ∧ stop ≤ upper

/-- Siblings stand between two offsets, one behind the other. -/
structure Aligned (lower upper : Nat) (nodes : List Node) : Prop where
  between : ∀ node ∈ nodes, node.Between lower upper
  inOrder : nodes.Pairwise Node.Before

section Siblings

variable {lower upper start stop : Nat} {node other : Node} {nodes others : List Node}

theorem Node.between_of_span (placed : node.span = some (Span.ofNats start stop))
    (after : lower ≤ start) (proper : start ≤ stop) (before : stop ≤ upper) :
    node.Between lower upper := by
  intro s found
  rw [placed, Option.mem_some_iff] at found
  exact ⟨start, stop, found.symm, after, proper, before⟩

theorem Node.between_of_none (absent : node.span = none) : node.Between lower upper := by
  intro s found
  rw [absent] at found
  cases found

theorem Node.Between.bounds (between : node.Between lower upper)
    (placed : node.span = some (Span.ofNats start stop)) :
    lower ≤ start ∧ start ≤ stop ∧ stop ≤ upper := by
  obtain ⟨first, last, same, bounds⟩ := between _ placed
  simp only [Span.ofNats, Span.mk.injEq, Int.natCast_inj] at same
  rw [same.1, same.2]
  exact bounds

theorem Node.Between.mono {lower' upper' : Nat} (between : node.Between lower upper)
    (less : lower' ≤ lower) (more : upper ≤ upper') : node.Between lower' upper' := by
  intro s found
  obtain ⟨start, stop, same, after, proper, before⟩ := between s found
  exact ⟨start, stop, same, Nat.le_trans less after, proper, Nat.le_trans before more⟩

theorem Node.Between.before {middle middle' : Nat} (first : node.Between lower middle)
    (second : other.Between middle' upper) (le : middle ≤ middle') : node.Before other := by
  intro s isFirst t isSecond
  obtain ⟨start, stop, rfl, -, -, ends⟩ := first s isFirst
  obtain ⟨start', stop', rfl, begins, -, -⟩ := second t isSecond
  exact Int.ofNat_le.mpr (Nat.le_trans ends (Nat.le_trans le begins))

theorem aligned_nil (lower upper : Nat) : Aligned lower upper [] := ⟨by simp, .nil⟩

theorem aligned_singleton (between : node.Between lower upper) : Aligned lower upper [node] :=
  ⟨List.forall_mem_singleton.mpr between, List.pairwise_singleton _ _⟩

theorem Aligned.mono {lower' upper' : Nat} (aligned : Aligned lower upper nodes)
    (less : lower' ≤ lower) (more : upper ≤ upper') : Aligned lower' upper' nodes :=
  ⟨fun node member => (aligned.between node member).mono less more, aligned.inOrder⟩

theorem Aligned.append {middle middle' : Nat} (first : Aligned lower middle nodes)
    (second : Aligned middle' upper others) (le : middle ≤ middle') (after : lower ≤ middle')
    (before : middle ≤ upper) : Aligned lower upper (nodes ++ others) where
  between := List.forall_mem_append.mpr
    ⟨fun node member => (first.between node member).mono (Nat.le_refl _) before,
      fun node member => (second.between node member).mono after (Nat.le_refl _)⟩
  inOrder := List.pairwise_append.mpr ⟨first.inOrder, second.inOrder,
    fun node member other member' =>
      (first.between node member).before (second.between other member') le⟩

/-- What follows a node with a span stands behind it. -/
theorem Aligned.behind (aligned : Aligned lower upper (node :: nodes))
    (placed : node.span = some (Span.ofNats start stop)) : Aligned stop upper nodes := by
  obtain ⟨follow, inOrder⟩ := List.pairwise_cons.mp aligned.inOrder
  refine ⟨fun other member t found => ?_, inOrder⟩
  obtain ⟨first, last, rfl, -, bounds⟩ :=
    aligned.between other (List.mem_cons_of_mem node member) t found
  exact ⟨first, last, rfl, Int.ofNat_le.mp (follow other member _ placed _ found), bounds⟩

/-- What stands before a node with a span stops before it. -/
theorem Aligned.of_append_cons (aligned : Aligned lower upper (nodes ++ node :: others))
    (placed : node.span = some (Span.ofNats start stop)) :
    Aligned lower start nodes ∧ Aligned stop upper others := by
  obtain ⟨first, second, across⟩ := List.pairwise_append.mp aligned.inOrder
  obtain ⟨betweenFirst, betweenSecond⟩ := List.forall_mem_append.mp aligned.between
  refine ⟨⟨fun other member s found => ?_, first⟩, Aligned.behind ⟨betweenSecond, second⟩ placed⟩
  obtain ⟨first, last, rfl, after, proper, -⟩ := betweenFirst other member s found
  have before := across other member node List.mem_cons_self _ found _ placed
  exact ⟨first, last, rfl, after, proper, Int.ofNat_le.mp before⟩

theorem exists_of_forall₂_mem {γ : Type} {result : γ → Node → Prop} {inputs : List γ}
    (each : List.Forall₂ result inputs nodes) (member : node ∈ nodes) :
    ∃ input ∈ inputs, result input node := by
  induction each with
  | nil =>
      cases member
  | @cons input other inputs nodes first rest hypothesis =>
      rcases List.mem_cons.mp member with rfl | later
      · exact ⟨input, List.mem_cons_self, first⟩
      · obtain ⟨input', isLater, holds⟩ := hypothesis later
        exact ⟨input', List.mem_cons_of_mem input isLater, holds⟩

/-- Nodes are in order when they come from inputs in order. -/
theorem pairwise_before_of_forall₂ {γ : Type} {result : γ → Node → Prop} {earlier : γ → γ → Prop}
    {inputs : List γ} (each : List.Forall₂ result inputs nodes) (inOrder : inputs.Pairwise earlier)
    (apart : ∀ a b node other, earlier a b → result a node → result b other → node.Before other) :
    nodes.Pairwise Node.Before := by
  induction each with
  | nil =>
      exact .nil
  | @cons input node inputs nodes first rest hypothesis =>
      obtain ⟨follow, others⟩ := List.pairwise_cons.mp inOrder
      refine List.pairwise_cons.mpr ⟨fun other member => ?_, hypothesis others⟩
      obtain ⟨i, inside, rfl⟩ := List.getElem_of_mem member
      have inside' : i < inputs.length := rest.length_eq ▸ inside
      exact apart _ _ _ _ (follow _ (List.getElem_mem inside')) first (rest.get inside' inside)

end Siblings

/-! ### Nodes that nest -/

section Parents

variable {start stop : Nat} {info : NodeInfo} {children : List Node}

theorem Node.nests_of_span (placed : info.span = some (Span.ofNats start stop))
    (proper : start ≤ stop) (aligned : Aligned start stop children)
    (below : ∀ child ∈ children, child.Nests) : Node.Nests (.mk info children) := by
  refine .mk ?_ ?_ aligned.inOrder below
  · intro s found
    rw [placed, Option.mem_some_iff] at found
    rw [← found]
    exact Int.ofNat_le.mpr proper
  · intro s found child member t inner
    rw [placed, Option.mem_some_iff] at found
    obtain ⟨first, last, rfl, after, -, before⟩ := aligned.between child member t inner
    rw [← found]
    exact ⟨Int.ofNat_le.mpr after, Int.ofNat_le.mpr before⟩

theorem Node.nests_of_none (absent : info.span = none) (inOrder : children.Pairwise Before)
    (below : ∀ child ∈ children, child.Nests) : Node.Nests (.mk info children) :=
  .mk (by simp [absent]) (by simp [absent]) inOrder below

end Parents

/-! ### Scanned content -/

namespace Inline

theorem Tiles.aligned {start stop : Nat} {nodes : List Node} (tiles : Tiles start stop nodes) :
    Aligned start stop nodes := by
  induction nodes generalizing start with
  | nil =>
      exact aligned_nil start stop
  | cons node rest hypothesis =>
      obtain ⟨next, placed, filled, others⟩ := tiles
      have proper := Nat.le_of_lt filled
      have first : Aligned start next [node] :=
        aligned_singleton (Node.between_of_span placed (Nat.le_refl _) proper (Nat.le_refl _))
      exact first.append (hypothesis others) (Nat.le_refl _) proper others.le

theorem Tiles.span_of_mem {start stop : Nat} {nodes : List Node} (tiles : Tiles start stop nodes) :
    ∀ node ∈ nodes, ∃ first last, node.span = some (Span.ofNats first last) ∧ first < last := by
  induction nodes generalizing start with
  | nil =>
      simp
  | cons node rest hypothesis =>
      obtain ⟨next, placed, filled, others⟩ := tiles
      exact List.forall_mem_cons.mpr ⟨⟨start, next, placed, filled⟩, hypothesis others⟩

/-- Scanned content nests, wherever it stands. -/
theorem Piece.nests {node : Node} (piece : Piece node) : ∀ first last,
    node.span = some (Span.ofNats first last) → first < last → node.Nests := by
  induction piece with
  | leaf kind =>
      intro first last placed filled
      exact Node.nests_of_span placed (Nat.le_of_lt filled) (aligned_nil _ _) (by simp)
  | @link info children start stop inner outer kind placed inside tiles below hypothesis =>
      intro _ _ _ _
      have proper : start ≤ stop := by
        have le := tiles.le
        omega
      have aligned := tiles.aligned.mono (Nat.le_of_lt inside.1) (Nat.le_of_lt inside.2)
      refine Node.nests_of_span placed proper aligned fun child member => ?_
      obtain ⟨first, last, span, filled⟩ := tiles.span_of_mem child member
      exact hypothesis child member first last span filled

theorem Tiling.nests {start stop : Nat} {nodes : List Node} (tiling : Tiling start stop nodes) :
    ∀ node ∈ nodes, node.Nests := by
  intro node member
  obtain ⟨first, last, placed, filled⟩ := tiling.tiles.span_of_mem node member
  exact (tiling.pieces node member).nests first last placed filled

end Inline

end MdxLocalization
