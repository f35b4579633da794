import MdxLocalization.Proofs.ElementRange
import MdxLocalization.Proofs.TreeNesting

/-!
# Folded elements nest

An element takes the place of the raw HTML from which it is read, up to the piece that closes it,
and holds what stands between its tags. When siblings stand one behind the other before folding,
they do so afterwards.

A tag that closes itself may end with the character behind its piece of HTML. Pieces that are folded
are not followed by such a character; reading them sees to that, and so does folding, since it reads
regions up to the start of a closing tag.
-/

namespace MdxLocalization.Document

/-- Siblings that nest, with their places between two offsets, and with no raw HTML that a closing
bracket follows. -/
structure Ready (source : Text) (lower upper : Nat) (nodes : List Node) : Prop where
  aligned : Aligned lower upper nodes
  nests : ∀ node ∈ nodes, node.Nests
  unclosed : ∀ node ∈ nodes, ∀ region ∈ htmlRegion? node, source[region.2]? ≠ some '>'

/-- Reading a region that no closing bracket follows gives siblings that nest in it. -/
def ReadsReady (source : Text) (read : FragmentReader) : Prop :=
  ∀ start stop, start ≤ stop → stop ≤ source.length → source[stop]? ≠ some '>' →
    Traced.Leaves (Ready source start stop) (read start stop)

/-- Folding leaves siblings in their place. -/
def FoldsReady (source : Text) (fold : Folder) : Prop :=
  ∀ lower upper nodes, upper ≤ source.length → Ready source lower upper nodes →
    Traced.Leaves (Ready source lower upper) (fold nodes)

variable {source : Text} {read : FragmentReader} {fold : Folder} {lower upper start stop : Nat}
  {node : Node} {nodes others rest : List Node}

/-! ### Siblings -/

theorem ready_nil (source : Text) (lower upper : Nat) : Ready source lower upper [] :=
  ⟨aligned_nil lower upper, by simp, by simp⟩

theorem Ready.append {middle : Nat} (first : Ready source lower middle nodes)
    (second : Ready source middle upper others) (after : lower ≤ middle) (before : middle ≤ upper) :
    Ready source lower upper (nodes ++ others) where
  aligned := first.aligned.append second.aligned (Nat.le_refl _) after before
  nests := List.forall_mem_append.mpr ⟨first.nests, second.nests⟩
  unclosed := List.forall_mem_append.mpr ⟨first.unclosed, second.unclosed⟩

theorem Ready.mono {lower' upper' : Nat} (ready : Ready source lower upper nodes)
    (less : lower' ≤ lower) (more : upper ≤ upper') : Ready source lower' upper' nodes :=
  ⟨ready.aligned.mono less more, ready.nests, ready.unclosed⟩

/-- The siblings behind a node go on behind its span, if it has one, and a node in front of siblings
that go on there is in its place. -/
theorem Ready.exists_middle (ready : Ready source lower upper (node :: rest)) :
    ∃ middle, lower ≤ middle ∧ Ready source middle upper rest ∧
      ∀ kept, Ready source middle upper kept → Ready source lower upper (node :: kept) := by
  obtain ⟨first, others⟩ := List.forall_mem_cons.mp ready.nests
  obtain ⟨own, pieces⟩ := List.forall_mem_cons.mp ready.unclosed
  have between := ready.aligned.between node List.mem_cons_self
  have put {middle : Nat} (less : lower ≤ middle) (place : node.Between lower middle)
      (kept : List Node) (after : Ready source middle upper kept) :
      Ready source lower upper (node :: kept) := by
    refine ⟨⟨?_, ?_⟩, List.forall_mem_cons.mpr ⟨first, after.nests⟩,
      List.forall_mem_cons.mpr ⟨own, after.unclosed⟩⟩
    · exact List.forall_mem_cons.mpr ⟨between, (after.aligned.mono less (Nat.le_refl _)).between⟩
    · refine List.pairwise_cons.mpr ⟨fun other member => ?_, after.aligned.inOrder⟩
      exact place.before (after.aligned.between other member) (Nat.le_refl _)
  cases placed : node.span with
  | none =>
      obtain ⟨-, inOrder⟩ := List.pairwise_cons.mp ready.aligned.inOrder
      have siblings : Aligned lower upper rest :=
        ⟨fun other member => ready.aligned.between other (List.mem_cons_of_mem node member),
          inOrder⟩
      exact ⟨lower, Nat.le_refl _, ⟨siblings, others, pieces⟩,
        put (Nat.le_refl _) (Node.between_of_none placed)⟩
  | some span =>
      obtain ⟨start, stop, rfl, after, proper, -⟩ := between span placed
      exact ⟨stop, Nat.le_trans after proper, ⟨ready.aligned.behind placed, others, pieces⟩,
        put (Nat.le_trans after proper) (Node.between_of_span placed after proper (Nat.le_refl _))⟩

theorem span_of_htmlRegion? (between : node.Between lower upper)
    (html : htmlRegion? node = some (start, stop)) :
    node.span = some (Span.ofNats start stop) := by
  unfold htmlRegion? at html
  split at html
  · rename_i span kind placed
    obtain ⟨first, last, rfl, -⟩ := between span placed
    cases html
    exact placed
  · cases html

/-! ### Elements -/

/-- A node is in its place before siblings that go on behind it, and so is what it holds. -/
theorem ready_cons {info : NodeInfo} {first last : Nat} {children left : List Node}
    (placed : info.span = some (Span.ofNats start stop))
    (folded : htmlRegion? (.mk info children) = none) (proper : start ≤ stop)
    (bounds : lower ≤ start ∧ stop ≤ upper) (content : Ready source first last children)
    (inside : start ≤ first ∧ last ≤ stop) (behind : Ready source stop upper left) :
    Ready source lower upper (.mk info children :: left) := by
  have between : Node.Between lower stop (.mk info children) :=
    Node.between_of_span placed bounds.1 proper (Nat.le_refl _)
  have nests := Node.nests_of_span placed proper (content.aligned.mono inside.1 inside.2)
    content.nests
  have alone : Ready source lower stop [.mk info children] :=
    ⟨aligned_singleton between, List.forall_mem_singleton.mpr nests, by simp [folded]⟩
  exact alone.append behind (Nat.le_trans bounds.1 proper) bounds.2

/-- The piece of raw HTML that closes an element parts the siblings behind it: the ones before the
piece belong to the element, and the ones behind it go on where the closing tag ends. -/
theorem Ready.of_ending? {name : Text} {depth : Nat} {e : Ending}
    (ready : Ready source stop upper rest) (found : ending? source name depth rest = some e) :
    (stop ≤ e.start ∧ e.start ≤ e.tag.1 ∧ e.tag.1 ≤ e.tag.2 ∧ e.tag.2 ≤ upper) ∧
      source[e.tag.1]? = some '<' ∧ Ready source stop e.start e.between ∧
      Ready source e.tag.2 upper (rest.drop (e.between.length + 1)) := by
  obtain ⟨piece, further, pieceStop, parts, html, closing⟩ := ending?_among found
  have left : rest.drop (e.between.length + 1) = further := by
    rw [parts, ← List.drop_drop, List.drop_left]
    rfl
  rw [left]
  rw [parts] at ready
  have pieceBetween := ready.aligned.between piece (by simp)
  have pieceSpan := span_of_htmlRegion? pieceBetween html
  obtain ⟨gap, pieceInOrder, pieceBefore⟩ := pieceBetween.bounds pieceSpan
  obtain ⟨after, proper, inside, bracket⟩ := closingTagIn?_within pieceInOrder closing
  obtain ⟨before, behind⟩ := ready.aligned.of_append_cons pieceSpan
  obtain ⟨beforeNests, othersNest⟩ := List.forall_mem_append.mp ready.nests
  obtain ⟨beforeUnclosed, othersUnclosed⟩ := List.forall_mem_append.mp ready.unclosed
  refine ⟨⟨gap, after, proper, Nat.le_trans inside pieceBefore⟩, bracket, ?_, ?_⟩
  · exact ⟨before, beforeNests, beforeUnclosed⟩
  · exact ⟨behind.mono inside (Nat.le_refl _), (List.forall_mem_cons.mp othersNest).2,
      (List.forall_mem_cons.mp othersUnclosed).2⟩

/-- The element that a node opens is in its place, before the siblings that do not belong to it. -/
theorem element?_leaves_ready (reads : ReadsReady source read) (folds : FoldsReady source fold)
    (within : upper ≤ source.length) (ready : Ready source lower upper (node :: rest)) :
    Traced.Leaves (fun found => ∀ result ∈ found,
        Ready source lower upper (result.1 :: rest.drop result.2))
      (element? source read fold node rest) := by
  refine element?_ends_of (by simp) fun start stop tag html isTag => ?_
  have placed := span_of_htmlRegion? (ready.aligned.between node List.mem_cons_self) html
  obtain ⟨after, inOrder, before⟩ :=
    (ready.aligned.between node List.mem_cons_self).bounds placed
  have stopWithin : stop ≤ source.length := Nat.le_trans before within
  have unclosed : source[stop]? ≠ some '>' :=
    ready.unclosed node List.mem_cons_self (start, stop) html
  have behind : Ready source stop upper rest :=
    ⟨ready.aligned.behind placed, (List.forall_mem_cons.mp ready.nests).2,
      (List.forall_mem_cons.mp ready.unclosed).2⟩
  obtain ⟨tagStop, span, tagFilled, -, bounded, -⟩ :=
    Jsx.readTag?_within inOrder stopWithin isTag
  have tagInOrder := Nat.le_of_lt tagFilled
  have tagBefore : tagStop ≤ stop := bounded (Or.inr unclosed)
  have tagStopEq : tag.span.stop.toNat = tagStop := by
    rw [span]
    rfl
  rw [tagStopEq, span]
  refine ⟨?_, fun isOpen => ⟨fun closing isClosing => ?_, ?_⟩⟩
  · simpa using ready_cons rfl rfl tagInOrder ⟨after, by omega⟩ (ready_nil source start tagStop)
      ⟨Nat.le_refl _, Nat.le_refl _⟩ (behind.mono tagBefore (Nat.le_refl _))
  · obtain ⟨afterTag, proper, inside, bracket⟩ := closingTagIn?_within tagBefore isClosing
    apply (reads tagStop closing.1 afterTag (by omega) (by simp [bracket])).imp
    intro children content
    simpa using ready_cons rfl rfl (by omega) ⟨after, by omega⟩ content ⟨tagInOrder, proper⟩
      (behind.mono inside (Nat.le_refl _))
  · apply (reads tagStop stop tagBefore stopWithin unclosed).imp
    intro first firstReady e isEnding
    obtain ⟨⟨gap, afterPiece, proper, inside⟩, bracket, between, further⟩ :=
      behind.of_ending? isEnding
    apply (reads e.start e.tag.1 afterPiece (by omega) (by simp [bracket])).imp
    intro last lastReady
    have content := (firstReady.append between tagBefore gap).append lastReady
      (Nat.le_trans tagBefore gap) afterPiece
    apply (folds _ _ _ (by omega) content).imp
    intro children kept
    simpa using ready_cons rfl rfl (by omega) ⟨after, by omega⟩ kept ⟨tagInOrder, proper⟩ further

theorem foldFrom_leaves_ready (reads : ReadsReady source read) (folds : FoldsReady source fold)
    (within : upper ≤ source.length) (skip : Nat)
    (ready : Ready source lower upper (nodes.drop skip)) :
    Traced.Leaves (Ready source lower upper) (foldFrom source read fold skip nodes) := by
  induction nodes generalizing lower skip with
  | nil =>
      rw [List.drop_nil] at ready
      exact Traced.ends_pure ready
  | cons node rest hypothesis =>
      cases skip with
      | succ skip =>
          exact hypothesis skip ready
      | zero =>
          rw [foldFrom]
          rw [List.drop_zero] at ready
          apply (element?_leaves_ready reads folds within ready).bind
          intro found elementReady
          cases found with
          | none =>
              obtain ⟨middle, -, behind, put⟩ := ready.exists_middle
              exact (hypothesis 0 behind).map put
          | some result =>
              obtain ⟨element, consumed⟩ := result
              obtain ⟨middle, -, behind, put⟩ := (elementReady _ rfl).exists_middle
              exact (hypothesis consumed behind).map put

end MdxLocalization.Document
