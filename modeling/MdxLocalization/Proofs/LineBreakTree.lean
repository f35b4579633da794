import MdxLocalization.Proofs.ElementRange
import MdxLocalization.Proofs.InlineTiling
import MdxLocalization.Proofs.LineBreakFragment
import MdxLocalization.Proofs.LineBreakMarkup

/-!
# Trees with the other kind of line breaks

A text and the same text with carriage returns have trees that mirror each other: the nodes are of
the same kinds, and their spans move with the text. Inline content is an exception. A code span or
the address of a link may be read differently when its break has another character, so of inline
content no more is said than that it tiles the region of its block in both trees.

Folding keeps this, since tags are found at moved places. Elements nest at most as deep as the text
between their tags is long, so the two budgets may differ.
-/

namespace MdxLocalization

open Document (Region)

/-! ### Nodes -/

/-- What a node records of a text and of the text with carriage returns. -/
structure NodeInfo.Mirrors (source : Text) (info info' : NodeInfo) : Prop where
  kind : info'.kind = info.kind
  name : info'.name = info.name
  span : info'.span = info.span.map (Span.moved source)
  attributes : info'.attributes = info.attributes.map (JsxAttribute.moved source)
  data : info.kind ≠ .yaml → info'.data = info.data
  literal : info.kind = .importDeclaration → info'.value = info.value
  frontMatter : info.kind = .yaml → ∃ start stop,
    info.value = some (Text.slice source start stop) ∧
      info.data = [(Text.ofString "valueStart", .ofNat start)] ∧
      info'.value = some (Text.addReturns (Text.slice source start stop)) ∧
      info'.data = [(Text.ofString "valueStart", .ofNat (Text.moved source start))]
  label : info.flag "directiveLabel" = true → ∀ s ∈ info.span,
    Span.moved source ⟨s.start + 1, s.stop - 1⟩ =
      ⟨(s.moved source).start + 1, (s.moved source).stop - 1⟩

/-- Whether nodes of a kind hold scanned content. -/
def NodeKind.isInlineBlock (kind : NodeKind) : Prop :=
  kind = .heading ∨ kind = .paragraph ∨ kind = .tableCell

/-- The nodes of a text and of the text with carriage returns. -/
inductive Node.Mirrors (source : Text) : Node → Node → Prop where
  | nested {info info' : NodeInfo} {children children' : List Node}
      (own : info.Mirrors source info') (size : children.length = children'.length)
      (below : ∀ child child',
        (child, child') ∈ children.zip children' → Mirrors source child child') :
      Mirrors source (.mk info children) (.mk info' children')
  | inline {info info' : NodeInfo} {children children' : List Node} {start stop : Nat}
      (own : info.Mirrors source info') (kind : info.kind.isInlineBlock) (placed : info.span ≠ none)
      (tiling : Inline.Tiling start stop children)
      (tiling' : Inline.Tiling (Text.moved source start) (Text.moved source stop) children') :
      Mirrors source (.mk info children) (.mk info' children')

/-- Siblings mirror each other one by one. -/
abbrev MirrorAll (source : Text) : List Node → List Node → Prop :=
  List.Forall₂ (Node.Mirrors source)

variable {source : Text} {info info' : NodeInfo} {node node' : Node}
  {nodes nodes' rest rest' : List Node}

theorem exists_of_rel_some {α β : Type} {related : α → β → Prop} {a : α} {y : Option β}
    (rel : Option.Rel related (some a) y) : ∃ b, y = some b ∧ related a b := by
  cases rel with
  | some holds =>
      exact ⟨_, rfl, holds⟩

theorem eq_none_of_rel {α β : Type} {related : α → β → Prop} {y : Option β}
    (rel : Option.Rel related none y) : y = none := by
  cases rel
  rfl

theorem Node.mirrors_of_children (own : info.Mirrors source info')
    (below : MirrorAll source nodes nodes') :
    Node.Mirrors source (.mk info nodes) (.mk info' nodes') :=
  .nested own below.length_eq fun _ _ member => (List.forall₂_iff_zip.mp below).2 member

theorem Node.Mirrors.own (mirrors : node.Mirrors source node') :
    node.info.Mirrors source node'.info := by
  cases mirrors with
  | nested own size below =>
      exact own
  | inline own kind placed tiling tiling' =>
      exact own

/-- Nodes of most kinds keep nothing but spans that could move. -/
theorem NodeInfo.mirrors_of_span {kind : NodeKind} {name value value' : Option Text}
    {depth : Option Int} {data : List (Text × Json)} {span span' : Option Span}
    (plain : kind ≠ .yaml ∧ (kind = .importDeclaration → value' = value))
    (unlabelled : NodeInfo.flag { kind, data } "directiveLabel" = false)
    (moved : span' = span.map (Span.moved source)) :
    NodeInfo.Mirrors source { kind, name, value, depth, data, span }
      { kind, name, value := value', depth, data, span := span' } where
  kind := rfl
  name := rfl
  span := moved
  attributes := rfl
  data := fun _ => rfl
  literal := plain.2
  frontMatter := fun same => absurd same plain.1
  label := fun labelled => absurd (labelled.symm.trans unlabelled) (by decide)

/-! ### Raw HTML -/

theorem Span.toNat_moved (source : Text) (s : Span) :
    ((s.moved source).start.toNat, (s.moved source).stop.toNat) =
      Region.moved source (s.start.toNat, s.stop.toNat) := by
  have offset : ∀ n : Int, (n + (source.take n.toNat).count '\n').toNat =
      n.toNat + (source.take n.toNat).count '\n' := by
    intro n
    rcases Int.le_total 0 n with proper | negative
    · omega
    · rw [Int.toNat_of_nonpos negative, List.take_zero, List.count_nil]
      omega
  exact Prod.ext (offset s.start) (offset s.stop)

theorem Node.Mirrors.htmlRegion? (mirrors : node.Mirrors source node') :
    Document.htmlRegion? node' = (Document.htmlRegion? node).map (Region.moved source) := by
  have own := mirrors.own
  unfold Document.htmlRegion? Node.kind Node.span
  rw [own.kind, own.span]
  cases node.info.kind <;> try rfl
  cases node.info.span with
  | none =>
      rfl
  | some s =>
      exact congrArg some (Span.toNat_moved source s)

namespace Document

theorem closingTagIn?_addReturns {name : Text} (isName : Jsx.IsName name) (source : Text)
    (start stop : Nat) :
    closingTagIn? (Text.addReturns source) name (Text.moved source start)
        (Text.moved source stop) =
      (closingTagIn? source name start stop).map (Region.moved source) := by
  unfold closingTagIn?
  rw [Text.slice_addReturns]
  exact Jsx.findClosingTag?_addReturns isName (List.take_prefix _ _)

/-! ### Endings -/

/-- How an element ends in the two texts. -/
structure Ending.Mirrors (source : Text) (e e' : Ending) : Prop where
  between : MirrorAll source e.between e'.between
  start : e'.start = Text.moved source e.start
  tag : e'.tag = Region.moved source e.tag

theorem Ending.Mirrors.addBefore {e e' : Ending} (mirrors : Ending.Mirrors source e e')
    (first : node.Mirrors source node') :
    Ending.Mirrors source (e.addBefore node) (e'.addBefore node') :=
  ⟨.cons first mirrors.between, mirrors.start, mirrors.tag⟩

/-- Whether an element of a name opens in a region and does not close itself. -/
def reopens (source name : Text) (start stop : Nat) : Bool :=
  match Jsx.readTag? source start stop with
  | some nested => nested.name = name && !nested.selfClosing
  | none => false

theorem reopens_addReturns (source name : Text) (start stop : Nat) :
    reopens (Text.addReturns source) name (Text.moved source start) (Text.moved source stop) =
      reopens source name start stop := by
  unfold reopens
  rw [Jsx.readTag?_addReturns]
  cases Jsx.readTag? source start stop <;> rfl

theorem ending?_of_html {name : Text} {start stop : Nat}
    (html : htmlRegion? node = some (start, stop)) (depth : Nat) :
    ending? source name depth (node :: rest) =
      if reopens source name start stop then
        (ending? source name
          (if (closingTagIn? source name start stop).isNone then depth + 1 else depth) rest).map
            (·.addBefore node)
      else
        match closingTagIn? source name start stop with
        | none => (ending? source name depth rest).map (·.addBefore node)
        | some tag =>
          match depth with
          | 0 => some ⟨[], start, tag⟩
          | depth + 1 => (ending? source name depth rest).map (·.addBefore node) := by
  rw [ending?, html]
  rfl

theorem ending?_mirrors {name : Text} (isName : Jsx.IsName name) (depth : Nat)
    (mirrors : MirrorAll source rest rest') :
    Option.Rel (Ending.Mirrors source) (ending? source name depth rest)
      (ending? (Text.addReturns source) name depth rest') := by
  induction mirrors generalizing depth with
  | nil =>
      exact .none
  | @cons node node' rest rest' first others hypothesis =>
      have further : ∀ depth, Option.Rel (Ending.Mirrors source)
          ((ending? source name depth rest).map (·.addBefore node))
          ((ending? (Text.addReturns source) name depth rest').map (·.addBefore node')) := by
        intro depth
        have found := hypothesis depth
        cases here : ending? source name depth rest with
        | none =>
            rw [here] at found
            rw [eq_none_of_rel found]
            exact .none
        | some e =>
            rw [here] at found
            obtain ⟨e', there, mirrors⟩ := exists_of_rel_some found
            rw [there]
            exact .some (mirrors.addBefore first)
      have moved := first.htmlRegion?
      cases html : htmlRegion? node with
      | none =>
          rw [html] at moved
          rw [ending?, ending?, html, moved]
          exact further depth
      | some region =>
          obtain ⟨start, stop⟩ := region
          rw [html] at moved
          rw [ending?_of_html html, ending?_of_html moved, reopens_addReturns,
            closingTagIn?_addReturns isName]
          split
          · rw [Option.isNone_map]
            exact further _
          · cases closingTagIn? source name start stop with
            | none =>
                exact further depth
            | some tag =>
                cases depth with
                | zero =>
                    exact .some ⟨.nil, rfl, rfl⟩
                | succ depth =>
                    exact further depth

/-! ### Elements -/

theorem tagInfo_mirrors (source : Text) (tag : JsxTag) (span : Span) :
    (tagInfo tag span).Mirrors source (tagInfo (tag.moved source) (span.moved source)) where
  kind := rfl
  name := rfl
  span := rfl
  attributes := rfl
  data := fun _ => rfl
  literal := by simp [tagInfo]
  frontMatter := by simp [tagInfo]
  label := by
    intro labelled
    cases labelled

/-- Reading between two offsets gives mirrored nodes in their place. -/
def ReadsMirrored (source : Text) (floor upper : Nat) (read read' : FragmentReader) : Prop :=
  ∀ start stop, floor < start → start ≤ stop → stop ≤ upper →
    Traced.Relates (fun nodes nodes' =>
        MirrorAll source nodes nodes' ∧ Placed source.length start stop nodes)
      (read start stop) (read' (Text.moved source start) (Text.moved source stop))

/-- Folding mirrored nodes between two offsets gives mirrored nodes. -/
def FoldsMirrored (source : Text) (floor upper : Nat) (fold fold' : Folder) : Prop :=
  ∀ start stop nodes nodes', floor < start → stop ≤ upper →
    Placed source.length start stop nodes → MirrorAll source nodes nodes' →
    Traced.Relates (MirrorAll source) (fold nodes) (fold' nodes')

variable {floor lower upper : Nat} {read read' : FragmentReader} {fold fold' : Folder}

theorem element_mirrors (tag : JsxTag) (start last : Nat) {children children' : List Node}
    (below : MirrorAll source children children') :
    (Node.mk (tagInfo tag (Span.ofNats start last)) children).Mirrors source
      (.mk (tagInfo (tag.moved source)
        (Span.ofNats (Text.moved source start) (Text.moved source last))) children') := by
  rw [← Span.moved_ofNats]
  exact Node.mirrors_of_children (tagInfo_mirrors source tag _) below

/-- The element that a node opens; it begins before anything that is read for it. -/
theorem element?_relates (reads : ReadsMirrored source floor upper read read')
    (folds : FoldsMirrored source floor upper fold fold') (within : upper ≤ source.length)
    (above : floor ≤ lower) (placed : Placed source.length lower upper (node :: rest))
    (first : node.Mirrors source node') (others : MirrorAll source rest rest') :
    Traced.Relates (Option.Rel fun a b => a.1.Mirrors source b.1 ∧ a.2 = b.2)
      (element? source read fold node rest)
      (element? (Text.addReturns source) read' fold' node' rest') := by
  have moved := first.htmlRegion?
  unfold element?
  cases html : htmlRegion? node with
  | none =>
      rw [html] at moved
      rw [moved]
      exact Traced.relates_pure .none
  | some region =>
      obtain ⟨start, stop⟩ := region
      rw [html] at moved
      rw [moved]
      dsimp only [Option.map_some, Region.moved]
      rw [Jsx.readTag?_addReturns]
      cases isTag : Jsx.readTag? source start stop with
      | none =>
          exact Traced.relates_pure .none
      | some tag =>
          have isName := Jsx.isName_of_readTag? isTag
          obtain ⟨after, inOrder, siblings⟩ := (htmlWithin_cons_some html).mp placed.html
          have stopWithin : stop ≤ source.length := Nat.le_trans siblings.le within
          obtain ⟨tagStop, span, filled, -, opens, -⟩ :=
            Jsx.readTag?_within inOrder stopWithin isTag
          have tagStopEq : tag.span.stop.toNat = tagStop := by
            rw [span]
            rfl
          have tagStopEq' : (tag.moved source).span.stop.toNat = Text.moved source tagStop := by
            rw [JsxTag.moved, span, Span.moved_ofNats]
            rfl
          dsimp only [Option.map_some]
          rw [tagStopEq, tagStopEq', show (tag.moved source).selfClosing = tag.selfClosing from rfl,
            show (tag.moved source).name = tag.name from rfl]
          have alone : (Node.mk (tagInfo tag tag.span) []).Mirrors source
              (.mk (tagInfo (tag.moved source) (tag.moved source).span) []) :=
            Node.mirrors_of_children (tagInfo_mirrors source tag tag.span) .nil
          split
          · exact Traced.relates_pure (.some ⟨alone, rfl⟩)
          · rename_i isOpen
            have tagBefore : tagStop ≤ stop := opens (Or.inl (by simpa using isOpen))
            rw [closingTagIn?_addReturns isName]
            have upperBound := siblings.le
            cases isClosing : closingTagIn? source tag.name tagStop stop with
            | some closing =>
                have bounds := closingTagIn?_within tagBefore isClosing
                refine (reads tagStop closing.1 (by omega) bounds.1 (by omega)).map ?_
                intro children children' below
                exact .some ⟨element_mirrors tag start closing.2 below.1, rfl⟩
            | none =>
                dsimp only [Option.map_none]
                refine (reads tagStop stop (by omega) tagBefore (by omega)).bind ?_
                intro before before' firstPart
                have endings := ending?_mirrors isName 0 others
                cases isEnding : ending? source tag.name 0 rest with
                | none =>
                    rw [isEnding] at endings
                    rw [eq_none_of_rel endings]
                    exact (Traced.relates_any _ _).map fun _ _ _ => .some ⟨alone, rfl⟩
                | some e =>
                    rw [isEnding] at endings
                    obtain ⟨e', isEnding', ending⟩ := exists_of_rel_some endings
                    have behind : Placed source.length stop upper rest :=
                      ⟨siblings, (List.forall_mem_cons.mp placed.inRange).2⟩
                    obtain ⟨between, gap, afterPiece, proper, inside⟩ :=
                      behind.of_ending? isEnding
                    rw [isEnding']
                    dsimp only
                    rw [ending.start, ending.tag]
                    refine (reads e.start e.tag.1 (by omega) afterPiece (by omega)).bind ?_
                    intro after after' secondPart
                    have content := (firstPart.2.append between).append secondPart.2
                    have contents : MirrorAll source (before ++ e.between ++ after)
                        (before' ++ e'.between ++ after') :=
                      List.rel_append (List.rel_append firstPart.1 ending.between) secondPart.1
                    refine (folds _ _ _ _ (by omega) (by omega) content contents).map ?_
                    intro children children' below
                    exact .some ⟨element_mirrors tag start e.tag.2 below,
                      congrArg (· + 1) ending.between.length_eq⟩

/-- Folding finds the same elements in the two texts. -/
theorem foldFrom_relates (reads : ReadsMirrored source floor upper read read')
    (folds : FoldsMirrored source floor upper fold fold') (within : upper ≤ source.length)
    (above : floor ≤ lower) (skip : Nat) (placed : Placed source.length lower upper nodes)
    (mirrors : MirrorAll source nodes nodes') :
    Traced.Relates (MirrorAll source) (foldFrom source read fold skip nodes)
      (foldFrom (Text.addReturns source) read' fold' skip nodes') := by
  induction mirrors generalizing lower skip with
  | nil =>
      exact Traced.relates_pure .nil
  | @cons node node' rest rest' first others hypothesis =>
      obtain ⟨middle, less, restPlaced, -⟩ := placed.exists_middle
      have further := fun skip => hypothesis (Nat.le_trans above less) skip restPlaced
      cases skip with
      | succ skip =>
          exact further skip
      | zero =>
          rw [foldFrom, foldFrom]
          refine (element?_relates reads folds within above placed first others).bind ?_
          intro found found' rel
          cases rel with
          | none =>
              exact (further 0).map fun kept kept' mirrors => .cons first mirrors
          | some same =>
              rename_i result result'
              obtain ⟨element, consumed⟩ := result
              obtain ⟨element', consumed'⟩ := result'
              obtain ⟨mirror, rfl⟩ := same
              exact (further consumed).map fun kept kept' mirrors => .cons mirror mirrors

end Document

end MdxLocalization
