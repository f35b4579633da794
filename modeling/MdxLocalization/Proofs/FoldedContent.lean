import MdxLocalization.Document.Parsing
import MdxLocalization.Proofs.ElementNesting
import MdxLocalization.Proofs.LinePositions
import MdxLocalization.Proofs.NodeEquality

/-!
# What folding keeps of the siblings

Folding puts an element in the place of the raw HTML from which it is read. The element ends with a
tag, and the piece of raw HTML with that tag may go on behind it. What stands there is in no node
afterwards: it is left over. Everything else that stood in a sibling stands in a node that is kept,
so that folding keeps the content of the siblings exactly if what is left over is white space.

Where elements stand and which siblings belong to them does not depend on what is read of their
content, so all this can be told from the siblings alone.
-/

namespace MdxLocalization.Document

/-! ### Places of siblings -/

/-- One of some nodes, given by their spans, stands at a position. -/
def Covered (spans : List (Option Span)) (i : Nat) : Prop :=
  ∃ span, some span ∈ spans ∧ span.start ≤ i ∧ i < span.stop

/-- Every character that is no white space and stands in one of some nodes stands in one of the
nodes that are kept. -/
def Keeps (source : Text) (nodes kept : List Node) : Prop :=
  ∀ i c, source[i]? = some c → Text.isBlank c = false →
    Covered (nodes.map Node.span) i → Covered (kept.map Node.span) i

/-- Where an element stands, how many of the siblings behind its opening tag belong to it, and where
the piece of raw HTML stops in which it ends. -/
structure Extent where
  span : Span
  consumed : Nat
  pieceStop : Nat

/-- The extent of the element that a node opens. Without a closing tag it is that of the opening
tag. -/
def extent? (source : Text) (node : Node) (rest : List Node) : Option Extent :=
  match htmlRegion? node with
  | none => none
  | some (start, stop) =>
    match Jsx.readTag? source start stop with
    | none => none
    | some tag =>
      if tag.selfClosing then some ⟨tag.span, 0, stop⟩
      else
        match closingTagIn? source tag.name tag.span.stop.toNat stop with
        | some closing => some ⟨Span.ofNats start closing.2, 0, stop⟩
        | none =>
          match ending? source tag.name 0 rest with
          | some e =>
            let piece := rest[e.between.length]?.bind htmlRegion?
            some ⟨Span.ofNats start e.tag.2, e.between.length + 1,
              (piece.map Prod.snd).getD e.tag.2⟩
          | none => some ⟨tag.span, 0, stop⟩

/-- The spans of what is kept of siblings. -/
def placesFrom (source : Text) (skip : Nat) : List Node → List (Option Span)
  | [] => []
  | node :: rest =>
    match skip with
    | skip + 1 => placesFrom source skip rest
    | 0 =>
      match extent? source node rest with
      | none => node.span :: placesFrom source 0 rest
      | some e => some e.span :: placesFrom source e.consumed rest

/-- The regions that are left over among siblings: what stands behind an element in the piece of raw
HTML in which it ends. -/
def leftoversFrom (source : Text) (skip : Nat) : List Node → List Region
  | [] => []
  | node :: rest =>
    match skip with
    | skip + 1 => leftoversFrom source skip rest
    | 0 =>
      match extent? source node rest with
      | none => leftoversFrom source 0 rest
      | some e => (e.span.stop.toNat, e.pieceStop) :: leftoversFrom source e.consumed rest

/-- A position in a region that is left over. -/
def LeftOver (source : Text) (skip : Nat) (nodes : List Node) (i : Nat) : Prop :=
  ∃ region ∈ leftoversFrom source skip nodes, region.1 ≤ i ∧ i < region.2

/-! ### Folding puts elements there -/

section Folding

variable {source : Text} {read : FragmentReader} {fold : Folder}

theorem element?_extent (source : Text) (read : FragmentReader) (fold : Folder) (node : Node)
    (rest : List Node) :
    Traced.Leaves (fun found => found.map (fun result => (result.1.span, result.2)) =
        (extent? source node rest).map fun e => (some e.span, e.consumed))
      (element? source read fold node rest) := by
  unfold element? extent?
  cases htmlRegion? node with
  | none =>
      exact Traced.ends_pure rfl
  | some region =>
      obtain ⟨start, stop⟩ := region
      dsimp only
      cases Jsx.readTag? source start stop with
      | none =>
          exact Traced.ends_pure rfl
      | some tag =>
          dsimp only
          by_cases closes : tag.selfClosing = true
          · rw [if_pos closes, if_pos closes]
            exact Traced.ends_pure rfl
          · rw [if_neg closes, if_neg closes]
            cases closingTagIn? source tag.name tag.span.stop.toNat stop with
            | some closing =>
                exact Traced.ends_any.map fun _ _ => rfl
            | none =>
                apply Traced.ends_any.bind
                intro before _
                cases ending? source tag.name 0 rest with
                | some e =>
                    exact Traced.ends_any.bind fun _ _ => Traced.ends_any.map fun _ _ => rfl
                | none =>
                    exact Traced.ends_any.bind fun _ _ => Traced.ends_pure rfl

theorem foldFrom_places (source : Text) (read : FragmentReader) (fold : Folder) (skip : Nat)
    (nodes : List Node) :
    Traced.Leaves (fun kept => kept.map Node.span = placesFrom source skip nodes)
      (foldFrom source read fold skip nodes) := by
  induction nodes generalizing skip with
  | nil =>
      exact Traced.ends_pure rfl
  | cons node rest hypothesis =>
      cases skip with
      | succ skip =>
          exact hypothesis skip
      | zero =>
          rw [foldFrom, placesFrom]
          apply (element?_extent source read fold node rest).bind
          intro found isFound
          cases known : extent? source node rest with
          | none =>
              rw [known] at isFound
              rw [Option.map_eq_none_iff.mp isFound]
              exact (hypothesis 0).map fun kept places => by rw [List.map_cons, places]
          | some e =>
              rw [known] at isFound
              obtain ⟨⟨element, consumed⟩, rfl, same⟩ := Option.map_eq_some_iff.mp isFound
              obtain ⟨span, rfl⟩ := Prod.mk.inj same
              exact (hypothesis e.consumed).map fun kept places => by
                rw [List.map_cons, places, span]

end Folding

/-! ### Where elements lie among their siblings -/

section Places

variable {source : Text} {lower upper start last stop i : Nat} {node : Node}
  {nodes rest : List Node} {e : Extent} {spans others : List (Option Span)}

theorem covered_ofNats_cons :
    Covered (some (Span.ofNats start stop) :: spans) i ↔
      (start ≤ i ∧ i < stop) ∨ Covered spans i := by
  constructor
  · rintro ⟨span, member, after, before⟩
    rcases List.mem_cons.mp member with same | later
    · cases same
      exact .inl ⟨Int.ofNat_le.mp after, Int.ofNat_lt.mp before⟩
    · exact .inr ⟨span, later, after, before⟩
  · rintro (⟨after, before⟩ | ⟨span, later, bounds⟩)
    · exact ⟨_, List.mem_cons_self, Int.ofNat_le.mpr after, Int.ofNat_lt.mpr before⟩
    · exact ⟨span, List.mem_cons_of_mem _ later, bounds⟩

theorem covered_append : Covered (spans ++ others) i ↔ Covered spans i ∨ Covered others i := by
  simp only [Covered, List.mem_append, or_and_right, exists_or]

/-- Siblings between two offsets stand at positions between them. -/
theorem bounds_of_covered (aligned : Aligned lower upper nodes)
    (covered : Covered (nodes.map Node.span) i) : lower ≤ i ∧ i < upper := by
  obtain ⟨span, member, after, before⟩ := covered
  obtain ⟨node, isNode, placed⟩ := List.mem_map.mp member
  obtain ⟨start, stop, rfl, lowerLe, -, leUpper⟩ := aligned.between node isNode span placed
  simp only [Span.ofNats] at after before
  omega

/-- An element among siblings: it starts where its opening tag does, the siblings that belong to it
stand in it up to the piece in which it ends, and the others go on behind this piece. -/
structure Extent.Lies (e : Extent) (lower upper start last stop : Nat) (node : Node)
    (rest : List Node) : Prop where
  opening : node.span = some (Span.ofNats start stop)
  span : e.span = Span.ofNats start last
  after : lower ≤ start
  filled : start < last
  inPiece : stop ≤ e.pieceStop ∧ last ≤ e.pieceStop + 1
  behind : Aligned e.pieceStop upper (rest.drop e.consumed)
  within : ∀ i, Covered ((rest.take e.consumed).map Node.span) i → start ≤ i ∧ i < e.pieceStop
  left : ∀ i, last ≤ i → i < e.pieceStop →
    Covered ((node :: rest.take e.consumed).map Node.span) i

theorem lies_alone (aligned : Aligned lower upper (node :: rest))
    (placed : node.span = some (Span.ofNats start stop)) (filled : start < last)
    (before : last ≤ stop + 1) :
    Extent.Lies ⟨Span.ofNats start last, 0, stop⟩ lower upper start last stop node rest where
  opening := placed
  span := rfl
  after := ((aligned.between node List.mem_cons_self).bounds placed).1
  filled := filled
  inPiece := ⟨Nat.le_refl _, before⟩
  behind := aligned.behind placed
  within i covered := by
    obtain ⟨span, member, -⟩ := covered
    cases member
  left i after before := by
    rw [List.map_cons, placed]
    exact covered_ofNats_cons.mpr (.inl ⟨by omega, before⟩)

theorem lies_of_ending {name : Text} {ending : Ending}
    (aligned : Aligned lower upper (node :: rest))
    (placed : node.span = some (Span.ofNats start stop)) (filled : start < stop)
    (found : ending? source name 0 rest = some ending) :
    Extent.Lies ⟨Span.ofNats start ending.tag.2, ending.between.length + 1,
        ((rest[ending.between.length]?.bind htmlRegion?).map Prod.snd).getD ending.tag.2⟩
      lower upper start ending.tag.2 stop node rest := by
  obtain ⟨piece, further, pieceStop, parts, html, closing⟩ := ending?_among found
  have behind := aligned.behind placed
  have isPiece : ((rest[ending.between.length]?.bind htmlRegion?).map Prod.snd).getD
      ending.tag.2 = pieceStop := by
    rw [parts, List.getElem?_append_right (Nat.le_refl _), Nat.sub_self]
    simp [html]
  have belongs : rest.take (ending.between.length + 1) = ending.between ++ [piece] := by
    rw [parts, List.take_length_add_append]
    rfl
  have others : rest.drop (ending.between.length + 1) = further := by
    rw [parts, ← List.drop_drop, List.drop_left]
    rfl
  rw [isPiece]
  rw [parts] at behind
  have pieceBetween := behind.between piece (by simp)
  have pieceSpan := span_of_htmlRegion? pieceBetween html
  obtain ⟨gap, pieceInOrder, pieceBefore⟩ := pieceBetween.bounds pieceSpan
  obtain ⟨afterPiece, proper, inside, -⟩ := closingTagIn?_within pieceInOrder closing
  obtain ⟨between, behindPiece⟩ := behind.of_append_cons pieceSpan
  refine ⟨placed, rfl, ((aligned.between node List.mem_cons_self).bounds placed).1, by omega,
    ⟨by dsimp only; omega, by dsimp only; omega⟩, ?_, ?_, ?_⟩
  · rw [others]
    exact behindPiece
  · intro i covered
    rw [belongs, List.map_append, List.map_singleton, pieceSpan, covered_append] at covered
    rcases covered with inBetween | inPiece
    · have bounds := bounds_of_covered between inBetween
      dsimp only
      omega
    · rcases covered_ofNats_cons.mp inPiece with bounds | ⟨span, member, -⟩
      · dsimp only
        omega
      · cases member
  · intro i after before
    rw [belongs, List.map_cons, List.map_append, List.map_singleton, pieceSpan]
    have inPiece : Covered [some (Span.ofNats ending.start pieceStop)] i :=
      covered_ofNats_cons.mpr (.inl ⟨by omega, before⟩)
    rw [placed]
    exact covered_ofNats_cons.mpr (.inr (covered_append.mpr (.inr inPiece)))

/-- The element that a node opens lies among its siblings. -/
theorem exists_lies (aligned : Aligned lower upper (node :: rest)) (within : upper ≤ source.length)
    (found : extent? source node rest = some e) :
    ∃ start last stop, e.Lies lower upper start last stop node rest := by
  unfold extent? at found
  split at found
  · cases found
  · rename_i start stop html
    have between := aligned.between node List.mem_cons_self
    have placed := span_of_htmlRegion? between html
    obtain ⟨after, inOrder, before⟩ := between.bounds placed
    split at found
    · cases found
    · rename_i tag isTag
      obtain ⟨⟨tagStop, span, tagFilled, ends⟩, -⟩ :=
        Jsx.readTag?_tagWithin inOrder (Nat.le_trans before within) isTag
      have tagStopEq : tag.span.stop.toNat = tagStop := by
        rw [span]
        rfl
      rw [tagStopEq, span] at found
      have alone := lies_alone aligned placed tagFilled (by omega)
      split at found
      · cases found
        exact ⟨_, _, _, alone⟩
      · rename_i opens
        have tagBefore : tagStop ≤ stop := by
          rcases ends with inside | ⟨closes, -⟩
          · exact inside
          · exact absurd closes opens
        split at found
        · rename_i closing isClosing
          obtain ⟨afterTag, proper, inside, -⟩ := closingTagIn?_within tagBefore isClosing
          cases found
          exact ⟨_, _, _, lies_alone aligned placed (by omega) (by omega)⟩
        · split at found
          · rename_i ending isEnding
            cases found
            exact ⟨_, _, _, lies_of_ending aligned placed (by omega) isEnding⟩
          · cases found
            exact ⟨_, _, _, alone⟩

/-! ### What is kept and what is left over -/

/-- The positions of siblings that stand from an offset on are parted into those of nodes that are
kept and those that are left over. What is left over lies behind the first position. -/
structure Parted (lower : Nat) (spans kept : List (Option Span)) (left : Nat → Prop) : Prop where
  inPlace : ∀ i, Covered kept i → lower ≤ i
  lost : ∀ i, left i → lower < i ∧ Covered spans i ∧ ¬ Covered kept i
  whole : ∀ i, Covered spans i → Covered kept i ∨ left i

variable {kept : List (Option Span)} {left : Nat → Prop}

/-- A sibling that opens no element is kept where it stands. -/
theorem Parted.plain (aligned : Aligned lower upper (node :: rest))
    (parted : ∀ middle, Aligned middle upper rest → Parted middle (rest.map Node.span) kept left) :
    Parted lower ((node :: rest).map Node.span) (node.span :: kept) left := by
  obtain ⟨middle, proper, behind, own⟩ : ∃ middle, lower ≤ middle ∧ Aligned middle upper rest ∧
      ∀ i, Covered [node.span] i → lower ≤ i ∧ i < middle := by
    have between := aligned.between node List.mem_cons_self
    cases placed : node.span with
    | none =>
        refine ⟨lower, Nat.le_refl _, ⟨fun other member => ?_, aligned.inOrder.of_cons⟩, ?_⟩
        · exact aligned.between other (List.mem_cons_of_mem node member)
        · rintro i ⟨span, member, -⟩
          simp at member
    | some span =>
        obtain ⟨start, stop, rfl, after, inOrder, -⟩ := between span placed
        refine ⟨stop, Nat.le_trans after inOrder, aligned.behind placed, fun i covered => ?_⟩
        rcases covered_ofNats_cons.mp covered with bounds | ⟨span, member, -⟩
        · omega
        · cases member
  have rest := parted middle behind
  have split {others : List (Option Span)} {i : Nat} :
      Covered (node.span :: others) i ↔ Covered [node.span] i ∨ Covered others i :=
    @covered_append _ [node.span] _
  refine ⟨fun i covered => ?_, fun i isLeft => ?_, fun i covered => ?_⟩
  · rcases split.mp covered with here | later
    · exact (own i here).1
    · exact Nat.le_trans proper (rest.inPlace i later)
  · obtain ⟨after, inRest, lost⟩ := rest.lost i isLeft
    refine ⟨by omega, split.mpr (.inr inRest), fun covered => ?_⟩
    rcases split.mp covered with here | later
    · have bounds := own i here
      omega
    · exact lost later
  · rcases split.mp covered with here | later
    · exact .inl (split.mpr (.inl here))
    · rcases rest.whole i later with isKept | isLeft
      · exact .inl (split.mpr (.inr isKept))
      · exact .inr isLeft

/-- An element takes the place of its siblings, but for what stands behind its end in the piece in
which it ends. -/
theorem Parted.element (lies : e.Lies lower upper start last stop node rest)
    (parted : Parted e.pieceStop ((rest.drop e.consumed).map Node.span) kept left) :
    Parted lower ((node :: rest).map Node.span) (some e.span :: kept)
      fun i => (e.span.stop.toNat ≤ i ∧ i < e.pieceStop) ∨ left i := by
  have after := lies.after
  have filled := lies.filled
  have inPiece := lies.inPiece
  have ends : e.span.stop.toNat = last := by
    rw [lies.span]
    rfl
  have parts : (node :: rest).map Node.span =
      (node :: rest.take e.consumed).map Node.span ++ (rest.drop e.consumed).map Node.span := by
    rw [← List.map_append, List.cons_append, List.take_append_drop]
  rw [ends, parts, lies.span]
  refine ⟨fun i covered => ?_, fun i isLeft => ?_, fun i covered => ?_⟩
  · rcases covered_ofNats_cons.mp covered with own | later
    · omega
    · have behind := parted.inPlace i later
      omega
  · rcases isLeft with ⟨behind, before⟩ | isLeft
    · refine ⟨by omega, covered_append.mpr (.inl (lies.left i behind before)), fun covered => ?_⟩
      rcases covered_ofNats_cons.mp covered with own | later
      · omega
      · have further := parted.inPlace i later
        omega
    · obtain ⟨further, inRest, lost⟩ := parted.lost i isLeft
      refine ⟨by omega, covered_append.mpr (.inr inRest), fun covered => ?_⟩
      rcases covered_ofNats_cons.mp covered with own | later
      · omega
      · exact lost later
  · rcases covered_append.mp covered with own | later
    · have bounds : start ≤ i ∧ i < e.pieceStop := by
        rw [List.map_cons, lies.opening] at own
        rcases covered_ofNats_cons.mp own with here | belongs
        · omega
        · exact lies.within i belongs
      by_cases inElement : i < last
      · exact .inl (covered_ofNats_cons.mpr (.inl ⟨bounds.1, inElement⟩))
      · exact .inr (.inl ⟨by omega, bounds.2⟩)
    · rcases parted.whole i later with isKept | isLeft
      · exact .inl (covered_ofNats_cons.mpr (.inr isKept))
      · exact .inr (.inr isLeft)

theorem parted_placesFrom (skip : Nat) (aligned : Aligned lower upper (nodes.drop skip))
    (within : upper ≤ source.length) :
    Parted lower ((nodes.drop skip).map Node.span) (placesFrom source skip nodes)
      (LeftOver source skip nodes) := by
  induction nodes generalizing lower skip with
  | nil =>
      rw [List.drop_nil]
      have nothing : ∀ i, ¬ Covered [] i := by
        rintro i ⟨span, member, -⟩
        cases member
      refine ⟨fun i covered => absurd covered (nothing i), ?_, fun i covered =>
        absurd covered (nothing i)⟩
      rintro i ⟨region, member, -⟩
      cases member
  | cons node rest hypothesis =>
      cases skip with
      | succ skip =>
          exact hypothesis skip aligned
      | zero =>
          rw [List.drop_zero] at aligned ⊢
          cases found : extent? source node rest with
          | none =>
              have places : placesFrom source 0 (node :: rest) =
                  node.span :: placesFrom source 0 rest := by
                rw [placesFrom, found]
              have left : LeftOver source 0 (node :: rest) = LeftOver source 0 rest := by
                funext i
                rw [LeftOver, LeftOver, leftoversFrom, found]
              rw [places, left]
              exact Parted.plain aligned fun middle behind => hypothesis 0 behind
          | some e =>
              obtain ⟨start, last, stop, lies⟩ := exists_lies aligned within found
              have places : placesFrom source 0 (node :: rest) =
                  some e.span :: placesFrom source e.consumed rest := by
                rw [placesFrom, found]
              have left : LeftOver source 0 (node :: rest) = fun i =>
                  (e.span.stop.toNat ≤ i ∧ i < e.pieceStop) ∨
                    LeftOver source e.consumed rest i := by
                funext i
                simp [LeftOver, leftoversFrom, found]
              rw [places, left]
              exact Parted.element lies (hypothesis _ lies.behind)

end Places

/-! ### When folding keeps the content -/

theorem isBlankText_slice_iff {t : Text} {start stop : Nat} :
    Text.isBlankText (Text.slice t start stop) = true ↔
      ∀ i c, start ≤ i → i < stop → t[i]? = some c → Text.isBlank c = true := by
  rw [Text.isBlankText, List.all_eq_true]
  constructor
  · intro blank i c after before found
    apply blank c
    rw [List.mem_iff_getElem?]
    refine ⟨i - start, ?_⟩
    rw [Text.getElem?_slice t (by omega), Nat.add_sub_cancel' after, found]
  · intro blank c member
    obtain ⟨n, found⟩ := List.mem_iff_getElem?.mp member
    have inside := (List.getElem?_eq_some_iff.mp found).1
    rw [Text.length_slice] at inside
    rw [Text.getElem?_slice t (by omega)] at found
    exact blank (start + n) c (Nat.le_add_right _ _) (by omega) found

/-- Folding siblings that stand one behind the other keeps every character that is no white space
exactly if only white space is left over: behind each element, up to the end of the piece of raw
HTML in which the element ends. -/
theorem foldElements_keeps_iff {locate : ParagraphLocator} {source : Text} {budget : Nat}
    {nodes kept : List Node} (aligned : Aligned 0 source.length nodes)
    (folded : (foldElements locate source (budget + 1) nodes).outcome.1 = .ok kept) :
    Keeps source nodes kept ↔
      ∀ region ∈ leftoversFrom source 0 nodes,
        Text.isBlankText (Text.slice source region.1 region.2) = true := by
  have places : kept.map Node.span = placesFrom source 0 nodes := by
    have settled : Settles (fun kept => kept.map Node.span = placesFrom source 0 nodes)
        (fun _ => True) (foldElements locate source (budget + 1) nodes).outcome.1 :=
      foldFrom_places source _ _ 0 nodes []
    rw [folded] at settled
    exact settled
  have parted : Parted 0 (nodes.map Node.span) (kept.map Node.span) (LeftOver source 0 nodes) := by
    rw [places]
    exact parted_placesFrom 0 aligned (Nat.le_refl _)
  constructor
  · intro keeps region isLeft
    refine isBlankText_slice_iff.mpr fun i c after before found => ?_
    obtain ⟨-, covered, lost⟩ := parted.lost i ⟨region, isLeft, after, before⟩
    by_contra filled
    exact lost (keeps i c found (by simpa using filled) covered)
  · intro blank i c found filled covered
    rcases parted.whole i covered with isKept | ⟨region, isLeft, after, before⟩
    · exact isKept
    · rw [isBlankText_slice_iff.mp (blank region isLeft) i c after before found] at filled
      cases filled

/-- A piece of raw HTML between two offsets. -/
def htmlNode (start stop : Nat) : Node :=
  .mk { kind := .html, span := some (Span.ofNats start stop) } []

def paragraphBetween (start stop : Nat) : Node :=
  .mk { kind := .paragraph, span := some (Span.ofNats start stop) } []

/-- An element around a paragraph. A tab stands behind the closing tag, and another paragraph behind
the element. -/
theorem foldElements_keeps_iff_paragraph :
    let source := Text.ofString "<A>\n\nb\n\n</A>\t\n\nc"
    let nodes := [htmlNode 0 3, paragraphBetween 5 6, htmlNode 8 13, paragraphBetween 15 16]
    let kept : List Node :=
      [.mk { kind := .jsxElement, name := some ['A'], span := some (Span.ofNats 0 12) }
        [paragraphBetween 5 6], paragraphBetween 15 16]
    Aligned 0 source.length nodes ∧
      (foldElements Fragment.locateParagraph source 2 nodes).outcome.1 = .ok kept ∧
      leftoversFrom source 0 nodes = [(12, 13)] ∧ Keeps source nodes kept := by
  intro source nodes kept
  have opening : Aligned 0 3 [htmlNode 0 3] := aligned_singleton
    (Node.between_of_span rfl (by decide) (by decide) (by decide))
  have content : Aligned 5 6 [paragraphBetween 5 6] := aligned_singleton
    (Node.between_of_span rfl (by decide) (by decide) (by decide))
  have closing : Aligned 8 13 [htmlNode 8 13] := aligned_singleton
    (Node.between_of_span rfl (by decide) (by decide) (by decide))
  have behind : Aligned 15 16 [paragraphBetween 15 16] := aligned_singleton
    (Node.between_of_span rfl (by decide) (by decide) (by decide))
  have aligned : Aligned 0 source.length nodes :=
    opening.append (content.append (closing.append behind (by decide) (by decide) (by decide))
      (by decide) (by decide) (by decide)) (by decide) (by decide) (by decide)
  have folded : (foldElements Fragment.locateParagraph source 2 nodes).outcome.1 = .ok kept := by
    decide +kernel
  have left : leftoversFrom source 0 nodes = [(12, 13)] := by
    decide +kernel
  refine ⟨aligned, folded, left, (foldElements_keeps_iff aligned folded).mpr ?_⟩
  rw [left]
  decide

/-- Every tag that opens an element is closed, in its piece of raw HTML or in a later one. -/
def ClosesTags (source : Text) (nodes : List Node) : Prop :=
  ∀ front node rest, nodes = front ++ node :: rest → ∀ start stop tag,
    htmlRegion? node = some (start, stop) → Jsx.readTag? source start stop = some tag →
    tag.selfClosing = false →
      (closingTagIn? source tag.name tag.span.stop.toNat stop).isSome = true ∨
        (ending? source tag.name 0 rest).isSome = true

/-- Folding does not keep all content even where every tag is closed. Two elements stand in a piece
of raw HTML on a line each, and the second one is lost. -/
theorem not_forall_foldElements_keeps :
    ¬ ∀ (source : Text) (nodes kept : List Node), Aligned 0 source.length nodes →
      ClosesTags source nodes →
      (foldElements Fragment.locateParagraph source (source.length + 1) nodes).outcome.1 =
        .ok kept →
      Keeps source nodes kept := by
  intro claim
  let source := Text.ofString "<A/>\n<B/>"
  have aligned : Aligned 0 source.length [htmlNode 0 9] := aligned_singleton
    (Node.between_of_span rfl (by decide) (by decide) (by decide))
  have closes : ClosesTags source [htmlNode 0 9] := by
    intro front node rest parts start stop tag html isTag opens
    have alone : (Jsx.readTag? source 0 9).map JsxTag.selfClosing = some true := by decide
    have same : node = htmlNode 0 9 := by
      have member : node ∈ [htmlNode 0 9] := by simp [parts]
      exact List.mem_singleton.mp member
    subst same
    cases html
    rw [show Jsx.readTag? source 0 9 = some tag from isTag, Option.map_some, opens] at alone
    cases alone
  have folded : (foldElements Fragment.locateParagraph source (source.length + 1)
      [htmlNode 0 9]).outcome.1 =
      .ok [.mk { kind := .jsxElement, name := some ['A'], span := some (Span.ofNats 0 4) } []] := by
    decide +kernel
  have inPiece : Covered ([htmlNode 0 9].map Node.span) 5 :=
    covered_ofNats_cons.mpr (.inl ⟨by decide, by decide⟩)
  obtain ⟨span, member, -, before⟩ := claim source _ _ aligned closes folded 5 '<' rfl rfl inPiece
  cases List.mem_singleton.mp member
  exact absurd before (by decide)

end MdxLocalization.Document
