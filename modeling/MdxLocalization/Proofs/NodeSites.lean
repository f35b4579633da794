import MdxLocalization.Proofs.AnchoredTrees
import MdxLocalization.Proofs.CanonicalLinks
import MdxLocalization.Proofs.SurveyCoverage
import MdxLocalization.Proofs.TreeNesting

/-!
# Sites in a tree

A site is a tree in which one node is left open. Where a tree nests and its nodes have spans, the
span of a node leads to its site: of several siblings only one can cover it. And what is written
around a node does not depend on what the node holds, only on where it stands.
-/

namespace MdxLocalization

/-! ### Nodes in a node -/

/-- A node is another one or stands somewhere below it. -/
inductive Node.Holds : Node → Node → Prop where
  | here {node : Node} : Holds node node
  | inside {info : NodeInfo} {children : List Node} {child target : Node}
      (member : child ∈ children) (further : Holds child target) :
      Holds (.mk info children) target

section Holding

variable {node child target : Node} {children : List Node} {span range : Span}

theorem Node.Holds.nests (holds : node.Holds target) (nests : node.Nests) : target.Nests := by
  induction holds with
  | here =>
      exact nests
  | inside member _ hypothesis =>
      exact hypothesis (nests.of_mem member)

theorem Node.Holds.anchored (holds : node.Holds target) (anchored : node.Anchored) :
    target.Anchored := by
  induction holds with
  | here =>
      exact anchored
  | inside member _ hypothesis =>
      exact hypothesis (anchored.of_mem member)

theorem Node.Holds.size_le (holds : node.Holds target) : sizeOf target ≤ sizeOf node := by
  induction holds with
  | here =>
      exact Nat.le_refl _
  | inside member _ hypothesis =>
      have smaller := List.sizeOf_lt_of_mem member
      rw [Node.mk.sizeOf_spec]
      omega

/-- A node does not stand below itself. -/
theorem Node.not_holds_of_mem {info : NodeInfo} (member : child ∈ children) :
    ¬ child.Holds (.mk info children) := by
  intro holds
  have le := holds.size_le
  have smaller := List.sizeOf_lt_of_mem member
  rw [Node.mk.sizeOf_spec] at le
  omega

/-- A node that holds another one with a span covers it. -/
theorem Node.Holds.covers (holds : node.Holds target) (nests : node.Nests)
    (anchored : node.Anchored) (placed : target.span = some range) :
    ∃ span, node.span = some span ∧ span.Covers range := by
  induction holds with
  | here =>
      exact ⟨range, placed, .refl range⟩
  | @inside info children child target member _ hypothesis =>
      obtain ⟨inner, innerPlaced, innerCovers⟩ :=
        hypothesis (nests.of_mem member) (anchored.of_mem member) placed
      obtain ⟨outerPlaced, -, -, -⟩ := anchored
      obtain ⟨outer, known⟩ :=
        Option.isSome_iff_exists.mp (outerPlaced (List.ne_nil_of_mem member))
      have covers : outer.Covers inner := nests.bounds known member innerPlaced
      exact ⟨outer, known, covers.trans innerCovers⟩

/-- Only one of several siblings covers a range that is not empty. -/
theorem eq_of_covers {other : Node} {s t : Span} (inOrder : children.Pairwise Node.Before)
    (member : node ∈ children) (isOther : other ∈ children) (placed : node.span = some s)
    (otherPlaced : other.span = some t) (filled : range.start < range.stop)
    (covers : s.Covers range) (otherCovers : t.Covers range) : node = other := by
  by_contra different
  have apart : children.Pairwise fun a b => a.Before b ∨ b.Before a := inOrder.imp Or.inl
  have : Std.Symm fun a b : Node => a.Before b ∨ b.Before a := ⟨fun _ _ => Or.symm⟩
  obtain ⟨start, stop⟩ := covers
  obtain ⟨otherStart, otherStop⟩ := otherCovers
  rcases apart.forall member isOther different with before | behind
  · have := before s placed t otherPlaced
    omega
  · have := behind t otherPlaced s placed
    omega

/-- A node that is not empty and a node that covers it stand in the same child of a node. -/
theorem eq_of_holds {parent other found : Node} {outer : Span} (nests : parent.Nests)
    (anchored : ∀ node ∈ parent.children, node.Anchored)
    (member : child ∈ parent.children) (isOther : other ∈ parent.children)
    (holds : child.Holds target) (otherHolds : other.Holds found)
    (placed : target.span = some span) (foundPlaced : found.span = some outer)
    (covers : outer.Covers span) (filled : span.start < span.stop) : child = other := by
  obtain ⟨s, known, around⟩ := holds.covers (nests.of_mem member) (anchored _ member) placed
  obtain ⟨t, otherKnown, otherAround⟩ :=
    otherHolds.covers (nests.of_mem isOther) (anchored _ isOther) foundPlaced
  obtain ⟨-, -, inOrder, -⟩ := nests
  exact eq_of_covers inOrder member isOther known otherKnown filled around
    (otherAround.trans covers)

end Holding

/-! ### Sites -/

/-- A tree in which one node is left open. -/
inductive Site where
  | here
  | inside (info : NodeInfo) (before : List Node) (inner : Site) (after : List Node)

namespace Site

/-- The tree with a node in the gap. -/
def fill : Site → Node → Node
  | .here, node => node
  | .inside info before inner after, node => .mk info (before ++ inner.fill node :: after)

theorem fill_here (node : Node) : here.fill node = node := rfl

theorem fill_inside (info : NodeInfo) (before : List Node) (inner : Site) (after : List Node)
    (node : Node) :
    (inside info before inner after).fill node = .mk info (before ++ inner.fill node :: after) :=
  rfl

theorem span_fill (site : Site) {node other : Node} (same : other.span = node.span) :
    (site.fill other).span = (site.fill node).span := by
  cases site with
  | here =>
      exact same
  | inside info before inner after =>
      rfl

theorem holds_fill (site : Site) (node : Node) : (site.fill node).Holds node := by
  induction site with
  | here =>
      exact .here
  | inside info before inner after hypothesis =>
      exact .inside (List.mem_append_right before List.mem_cons_self) hypothesis

end Site

theorem Node.Holds.exists_site {node target : Node} (holds : node.Holds target) :
    ∃ site : Site, site.fill target = node := by
  induction holds with
  | here =>
      exact ⟨.here, rfl⟩
  | @inside info children child target member _ hypothesis =>
      obtain ⟨inner, filled⟩ := hypothesis
      obtain ⟨before, after, rfl⟩ := List.append_of_mem member
      exact ⟨.inside info before inner after, by rw [Site.fill_inside, filled]⟩

/-! ### The text around a site -/

namespace Extract

open Inline (sourceTexts_append sourceTexts_cons)

variable {source : Text} {stop cursor : Int} {span : Span} {before after : List Node}

theorem sourceText_of_link {info : NodeInfo} {children : List Node} (kind : info.kind = .link) :
    sourceText source (.mk info children) = linkText info (sourceTexts source children) := by
  rw [sourceText.eq_def]
  simp only [kind]

/-- The label is written behind the first bracket. -/
theorem exists_linkText_eq (info : NodeInfo) :
    ∃ rest, ∀ label, linkText info label = '[' :: label ++ rest := by
  refine ⟨(linkText info []).tail, fun label => ?_⟩
  unfold linkText
  simp

/-- A node with a given span is written among its siblings if these end before it. -/
theorem exists_sourceBetween_eq (source : Text) (after : List Node)
    (behind : cursor ≤ span.start) (within : span.stop ≤ stop)
    (earlier : ∀ node ∈ before, ∀ s ∈ node.span, s.stop ≤ span.start) :
    ∃ front back, ∀ node : Node, node.span = some span →
      sourceBetween source stop cursor (before ++ node :: after) =
        front ++ sourceText source node ++ back := by
  induction before generalizing cursor with
  | nil =>
      refine ⟨Text.window source cursor span.start, sourceBetween source stop span.stop after,
        fun node placed => ?_⟩
      obtain ⟨info, children⟩ := node
      change info.span = some span at placed
      have room : ¬ (span.start < cursor || stop < span.stop) = true := by
        rw [Bool.or_eq_true, decide_eq_true_eq, decide_eq_true_eq]
        omega
      rw [List.nil_append, sourceBetween]
      simp only [placed]
      rw [if_neg room]
  | cons first rest hypothesis =>
      obtain ⟨here, later⟩ := List.forall_mem_cons.mp earlier
      obtain ⟨info, children⟩ := first
      simp only [List.cons_append, sourceBetween]
      split
      · exact hypothesis behind later
      · rename_i firstSpan known
        split
        · exact hypothesis behind later
        · obtain ⟨front, back, written⟩ := hypothesis (here firstSpan known) later
          refine ⟨Text.window source cursor firstSpan.start ++
            sourceText source (.mk info children) ++ front, back, fun node placed => ?_⟩
          rw [written node placed]
          simp only [List.append_assoc]

/-- What is written around a site is the same for all nodes with the same span. -/
theorem exists_sourceText_fill_eq (source : Text) (site : Site) {target : Node}
    (placed : target.span = some span)
    (nests : (site.fill target).Nests) (anchored : (site.fill target).Anchored) :
    ∃ front back, ∀ node : Node, node.span = some span →
      sourceText source (site.fill node) = front ++ sourceText source node ++ back := by
  induction site with
  | here =>
      exact ⟨[], [], fun node _ => by rw [Site.fill_here, List.nil_append, List.append_nil]⟩
  | inside info before inner after hypothesis =>
      have member : inner.fill target ∈ before ++ inner.fill target :: after :=
        List.mem_append_right before List.mem_cons_self
      have innerNests := nests.of_mem member
      have innerAnchored := anchored.of_mem member
      obtain ⟨front, back, written⟩ := hypothesis innerNests innerAnchored
      obtain ⟨innerSpan, innerPlaced, -⟩ :=
        (inner.holds_fill target).covers innerNests innerAnchored placed
      have stays : ∀ node : Node, node.span = some span →
          (inner.fill node).span = some innerSpan :=
        fun node same => (inner.span_fill (same.trans placed.symm)).trans innerPlaced
      by_cases kind : info.kind = .link
      · obtain ⟨rest, spelled⟩ := exists_linkText_eq info
        refine ⟨'[' :: sourceTexts source before ++ front,
          back ++ sourceTexts source after ++ rest, fun node same => ?_⟩
        rw [Site.fill_inside, sourceText_of_link kind, spelled, sourceTexts_append,
          sourceTexts_cons, written node same]
        simp only [List.append_assoc, List.cons_append]
      · obtain ⟨outerPlaced, -, -, -⟩ := anchored
        obtain ⟨outer, known⟩ :=
          Option.isSome_iff_exists.mp (outerPlaced (List.ne_nil_of_mem member))
        have bounds := nests.bounds known member innerPlaced
        obtain ⟨-, -, inOrder, -⟩ := nests
        obtain ⟨-, -, apart⟩ := List.pairwise_append.mp inOrder
        obtain ⟨start, rest, around⟩ :=
          exists_sourceBetween_eq source after bounds.1 bounds.2 fun node isBefore s found =>
            apart node isBefore _ List.mem_cons_self s found innerSpan innerPlaced
        refine ⟨start ++ front, back ++ rest, fun node same => ?_⟩
        rw [Site.fill_inside, sourceText_of_placed kind known, around _ (stays node same),
          written node same]
        simp only [List.append_assoc]

end Extract

end MdxLocalization
