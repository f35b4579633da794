import MdxLocalization.Extract.SourceText
import MdxLocalization.Proofs.Weaving

/-!
# Splicing without links

A node is written as its slice of the source with the slices of its children replaced. Where nothing
is a link, nothing is written differently from how it stands, so the replacements change nothing.
This asks little of a tree: a child that does not fit between the child before it and the end of its
parent is passed over, and then its slice is copied with the rest. Only a span whose ends are out of
order could take the writing back to what was written before.
-/

namespace MdxLocalization

/-- A property of the facts of all nodes in a tree. -/
inductive Node.Every (holds : NodeInfo → Prop) : Node → Prop where
  | mk {info : NodeInfo} {children : List Node} (own : holds info)
      (below : ∀ child ∈ children, Every holds child) : Every holds (.mk info children)

theorem Node.Every.imp {holds weaker : NodeInfo → Prop} {node : Node} (every : node.Every holds)
    (implies : ∀ info, holds info → weaker info) : node.Every weaker := by
  induction every with
  | mk own _ below =>
      exact .mk (implies _ own) below

namespace Text

theorem clamp_mono {length : Nat} {first last : Int} (lower : 0 ≤ first) (inOrder : first ≤ last) :
    clamp length first ≤ clamp length last := by
  unfold clamp
  rw [if_neg (by omega), if_neg (by omega)]
  omega

theorem window_append_window (t : Text) {first middle last : Int} (lower : 0 ≤ first)
    (inOrder : first ≤ middle) (upper : middle ≤ last) :
    window t first middle ++ window t middle last = window t first last :=
  slice_append_slice t (clamp_mono lower inOrder) (clamp_mono (Int.le_trans lower inOrder) upper)

/-- Positions past the end of a text select nothing, whether they are cut to its end or not. -/
theorem window_eq_slice (t : Text) (start stop : Nat) :
    window t start stop = slice t start stop := by
  unfold window clamp slice
  rw [if_neg (by omega), if_neg (by omega), Int.toNat_natCast, Int.toNat_natCast]
  rcases Nat.le_total t.length start with past | inside
  · rw [List.drop_of_length_le past, List.drop_of_length_le (by omega), List.take_nil,
      List.take_nil]
  · rw [Nat.min_eq_left inside, List.take_eq_take_iff, List.length_drop]
    omega

end Text

namespace Extract

/-- No link, and no span with its ends out of order. -/
structure Spliceable (info : NodeInfo) : Prop where
  noLink : info.kind ≠ .link
  inOrder : ∀ span, info.span = some span → span.start ≤ span.stop

variable {source : Text}

theorem sourceText_of_placed {info : NodeInfo} {children : List Node} {span : Span}
    (noLink : info.kind ≠ .link) (placed : info.span = some span) :
    sourceText source (.mk info children) =
      sourceBetween source span.stop span.start children := by
  rw [sourceText.eq_def]
  simp only [placed]

/-- Nodes that are written as they stand in the source leave it as it is when they are put in the
place of their spans, whichever of them find room. -/
theorem sourceBetween_eq_window {stop cursor : Int} {nodes : List Node}
    (lower : 0 ≤ cursor) (upper : cursor ≤ stop)
    (faithful : ∀ node ∈ nodes, ∀ span, node.span = some span →
      span.start ≤ span.stop ∧ (0 ≤ span.start →
        sourceText source node = Text.window source span.start span.stop)) :
    sourceBetween source stop cursor nodes = Text.window source cursor stop := by
  induction nodes generalizing cursor with
  | nil =>
      rw [sourceBetween]
  | cons node rest hypothesis =>
      obtain ⟨here, later⟩ := List.forall_mem_cons.mp faithful
      obtain ⟨info, children⟩ := node
      rw [sourceBetween]
      split
      · exact hypothesis lower upper later
      · rename_i span placed
        split
        · exact hypothesis lower upper later
        · rename_i room
          rw [Bool.or_eq_true, decide_eq_true_eq, decide_eq_true_eq, not_or] at room
          have behind : cursor ≤ span.start := Int.not_lt.mp room.1
          have before : span.stop ≤ stop := Int.not_lt.mp room.2
          have starts := Int.le_trans lower behind
          obtain ⟨inOrder, written⟩ := here span placed
          rw [written starts, hypothesis (Int.le_trans starts inOrder) before later,
            Text.window_append_window source lower behind inOrder,
            Text.window_append_window source lower (Int.le_trans behind inOrder) before]

theorem sourceText_eq_window {node : Node} (spliceable : node.Every Spliceable)
    {span : Span} (placed : node.span = some span) (lower : 0 ≤ span.start) :
    sourceText source node = Text.window source span.start span.stop := by
  induction spliceable generalizing span with
  | @mk info children own below hypothesis =>
      have known : info.span = some span := placed
      rw [sourceText_of_placed own.noLink known]
      refine sourceBetween_eq_window lower (own.inOrder span known) ?_
      intro child member childSpan childPlaced
      refine ⟨?_, hypothesis child member childPlaced⟩
      cases below child member with
      | mk childOwn =>
          exact childOwn.inOrder childSpan childPlaced

/-- A tree without links is written as the source in the span of its top node. Below the top, spans
may be missing, overlap, stand in any order or reach out of the span of their parent, as long as
none of them ends before it starts. -/
theorem sourceText_of_spliceable {node : Node} {start stop : Nat}
    (spliceable : node.Every Spliceable) (placed : node.span = some (.ofNats start stop)) :
    sourceText source node = Text.slice source start stop := by
  rw [sourceText_eq_window spliceable placed (Int.natCast_nonneg start)]
  exact Text.window_eq_slice source start stop

/-- Children that have no place, reach out of their parent, overlap and come in the wrong order. -/
theorem sourceText_of_spliceable_scattered :
    let source := Text.ofString "a `b` c **d** e"
    let leaf (kind : NodeKind) (span : Option Span) : Node :=
      .mk { kind, span, value := some ['?'] } []
    let inner : Node := .mk { kind := .listItem, span := some ⟨4, 11⟩ }
      [leaf .inlineCode (some ⟨-3, 2⟩), leaf .text (some ⟨6, 9⟩), leaf .text (some ⟨8, 20⟩)]
    let node : Node := .mk { kind := .paragraph, span := some ⟨2, 13⟩ }
      [leaf .code none, inner, leaf .inlineCode (some ⟨2, 5⟩), leaf .html (some ⟨11, 11⟩)]
    node.Every Spliceable ∧ node.span = some (.ofNats 2 13) ∧
      sourceText source node = Text.ofString "`b` c **d**" := by
  intro source leaf inner node
  have alone {kind : NodeKind} {span : Option Span} (noLink : kind ≠ .link)
      (inOrder : ∀ s, span = some s → s.start ≤ s.stop) :
      (leaf kind span).Every Spliceable :=
    .mk ⟨noLink, inOrder⟩ (by simp)
  have innerEvery : inner.Every Spliceable := by
    refine .mk ⟨by decide, by simp⟩ ?_
    simp only [List.forall_mem_cons]
    exact ⟨alone (by decide) (by simp), alone (by decide) (by simp), alone (by decide) (by simp),
      by simp⟩
  have every : node.Every Spliceable := by
    refine .mk ⟨by decide, by simp⟩ ?_
    simp only [List.forall_mem_cons]
    exact ⟨alone (by decide) (by simp), innerEvery, alone (by decide) (by simp),
      alone (by decide) (by simp), by simp⟩
  exact ⟨every, rfl, sourceText_of_spliceable every rfl⟩

end Extract

end MdxLocalization
