import MdxLocalization.Document.Element
import MdxLocalization.Proofs.MarkupRange

/-!
# Folded elements in range

An element reaches from its opening tag to its closing tag, which may stand in a later sibling. So
its span has its ends in order because the pieces of raw HTML among siblings follow one another.
Folding keeps this: it only takes siblings away, and elements are no raw HTML.
-/

namespace MdxLocalization.Document

/-! ### Raw HTML among siblings -/

/-- The pieces of raw HTML among nodes stand between two offsets, each behind the one before it. -/
def HtmlWithin (lower upper : Nat) : List Node → Prop
  | [] => lower ≤ upper
  | node :: rest =>
    match htmlRegion? node with
    | none => HtmlWithin lower upper rest
    | some (start, stop) => lower ≤ start ∧ start ≤ stop ∧ HtmlWithin stop upper rest

/-- Nodes that are in range, with their raw HTML between two offsets. -/
structure Placed (length lower upper : Nat) (nodes : List Node) : Prop where
  html : HtmlWithin lower upper nodes
  inRange : ∀ node ∈ nodes, node.InRange length

variable {length lower upper : Nat} {node : Node} {nodes rest : List Node}

theorem htmlWithin_cons :
    HtmlWithin lower upper (node :: rest) ↔
      match htmlRegion? node with
      | none => HtmlWithin lower upper rest
      | some (start, stop) => lower ≤ start ∧ start ≤ stop ∧ HtmlWithin stop upper rest := Iff.rfl

theorem htmlWithin_cons_none (noHtml : htmlRegion? node = none) :
    HtmlWithin lower upper (node :: rest) ↔ HtmlWithin lower upper rest := by
  rw [htmlWithin_cons, noHtml]

theorem htmlWithin_cons_some {start stop : Nat} (html : htmlRegion? node = some (start, stop)) :
    HtmlWithin lower upper (node :: rest) ↔
      lower ≤ start ∧ start ≤ stop ∧ HtmlWithin stop upper rest := by
  rw [htmlWithin_cons, html]

theorem HtmlWithin.le (within : HtmlWithin lower upper nodes) : lower ≤ upper := by
  induction nodes generalizing lower with
  | nil =>
      exact within
  | cons node rest hypothesis =>
      rw [htmlWithin_cons] at within
      split at within
      · exact hypothesis within
      · exact Nat.le_trans within.1 (Nat.le_trans within.2.1 (hypothesis within.2.2))

/-- Without raw HTML there is nothing to stand in order. -/
theorem htmlWithin_of_none (noHtml : ∀ node ∈ nodes, htmlRegion? node = none)
    (inOrder : lower ≤ upper) : HtmlWithin lower upper nodes := by
  induction nodes with
  | nil =>
      exact inOrder
  | cons node rest hypothesis =>
      obtain ⟨first, others⟩ := List.forall_mem_cons.mp noHtml
      exact (htmlWithin_cons_none first).mpr (hypothesis others)

theorem HtmlWithin.mono {lower' upper' : Nat} (within : HtmlWithin lower upper nodes)
    (less : lower' ≤ lower) (more : upper ≤ upper') : HtmlWithin lower' upper' nodes := by
  induction nodes generalizing lower lower' with
  | nil =>
      exact Nat.le_trans less (Nat.le_trans within more)
  | cons node rest hypothesis =>
      rw [htmlWithin_cons] at within ⊢
      split at within
      · exact hypothesis within less
      · exact ⟨Nat.le_trans less within.1, within.2.1, hypothesis within.2.2 (Nat.le_refl _)⟩

theorem HtmlWithin.append {middle : Nat} {others : List Node}
    (first : HtmlWithin lower middle nodes) (second : HtmlWithin middle upper others) :
    HtmlWithin lower upper (nodes ++ others) := by
  induction nodes generalizing lower with
  | nil =>
      exact second.mono first (Nat.le_refl _)
  | cons node rest hypothesis =>
      rw [List.cons_append, htmlWithin_cons]
      rw [htmlWithin_cons] at first
      split at first
      · exact hypothesis first
      · exact ⟨first.1, first.2.1, hypothesis first.2.2⟩

theorem HtmlWithin.of_append_cons {start stop : Nat} {piece : Node}
    (within : HtmlWithin lower upper (nodes ++ piece :: rest))
    (html : htmlRegion? piece = some (start, stop)) :
    HtmlWithin lower start nodes ∧ start ≤ stop ∧ stop ≤ upper := by
  induction nodes generalizing lower with
  | nil =>
      obtain ⟨after, inOrder, others⟩ := (htmlWithin_cons_some html).mp within
      exact ⟨after, inOrder, others.le⟩
  | cons node nodes hypothesis =>
      rw [List.cons_append, htmlWithin_cons] at within
      rw [htmlWithin_cons]
      split at within
      · exact hypothesis within
      · obtain ⟨before, bounds⟩ := hypothesis within.2.2
        exact ⟨⟨within.1, within.2.1, before⟩, bounds⟩

theorem HtmlWithin.exists_middle (within : HtmlWithin lower upper (node :: rest)) :
    ∃ middle, lower ≤ middle ∧ HtmlWithin middle upper rest ∧
      ∀ kept, HtmlWithin middle upper kept → HtmlWithin lower upper (node :: kept) := by
  cases html : htmlRegion? node with
  | none =>
      exact ⟨lower, Nat.le_refl _, (htmlWithin_cons_none html).mp within,
        fun kept => (htmlWithin_cons_none html).mpr⟩
  | some region =>
      obtain ⟨after, inOrder, siblings⟩ := (htmlWithin_cons_some html).mp within
      exact ⟨region.2, Nat.le_trans after inOrder, siblings,
        fun kept rest => (htmlWithin_cons_some html).mpr ⟨after, inOrder, rest⟩⟩

/-! ### Endings -/

/-- An element ends in one of the siblings after it, a piece of raw HTML that has the closing tag;
the siblings between belong to the element. -/
def Ending.Among (source name : Text) (rest : List Node) (e : Ending) : Prop :=
  ∃ piece others stop, rest = e.between ++ piece :: others ∧
    htmlRegion? piece = some (e.start, stop) ∧
    closingTagIn? source name e.start stop = some e.tag

theorem Ending.Among.addBefore {source name : Text} {e : Ending}
    (among : Ending.Among source name rest e) (node : Node) :
    Ending.Among source name (node :: rest) (e.addBefore node) := by
  obtain ⟨piece, others, stop, parts, html, closing⟩ := among
  refine ⟨piece, others, stop, ?_, html, closing⟩
  rw [parts]
  rfl

theorem ending?_among {source name : Text} {depth : Nat} {e : Ending}
    (found : ending? source name depth rest = some e) : Ending.Among source name rest e := by
  induction rest generalizing depth e with
  | nil =>
      cases found
  | cons node rest hypothesis =>
      have later : ∀ {depth : Nat},
          (ending? source name depth rest).map (·.addBefore node) = some e →
          Ending.Among source name (node :: rest) e := by
        intro depth given
        obtain ⟨inner, further, same⟩ := Option.map_eq_some_iff.mp given
        exact same ▸ (hypothesis further).addBefore node
      rw [ending?] at found
      split at found
      · exact later found
      · rename_i start stop html
        dsimp only at found
        -- The search goes on behind the piece, or it ends there with the tag that was found.
        repeat' split at found
        all_goals first
          | exact later found
          | skip
        all_goals
          rename_i closing _
          cases found
          exact ⟨node, rest, stop, rfl, html, closing⟩

theorem closingTagIn?_within {source name : Text} {start stop : Nat} {tag : Nat × Nat}
    (inOrder : start ≤ stop) (found : closingTagIn? source name start stop = some tag) :
    start ≤ tag.1 ∧ tag.1 ≤ tag.2 ∧ tag.2 ≤ stop ∧ source[tag.1]? = some '<' := by
  obtain ⟨after, proper, inside, bracket⟩ := Jsx.findClosingTag?_within found
  rw [Text.length_slice] at inside
  have present := (List.getElem?_eq_some_iff.mp bracket).1
  rw [Text.length_slice] at present
  rw [Text.getElem?_slice _ (by omega), Nat.add_sub_cancel' after] at bracket
  exact ⟨after, proper, by omega, bracket⟩

theorem HtmlWithin.of_ending? {source name : Text} {depth : Nat} {e : Ending}
    (within : HtmlWithin lower upper rest) (found : ending? source name depth rest = some e) :
    HtmlWithin lower e.start e.between ∧
      (lower ≤ e.start ∧ e.start ≤ e.tag.1 ∧ e.tag.1 ≤ e.tag.2 ∧ e.tag.2 ≤ upper) := by
  obtain ⟨piece, others, pieceStop, parts, html, closing⟩ := ending?_among found
  obtain ⟨between, pieceInOrder, pieceWithin⟩ := (parts ▸ within).of_append_cons html
  obtain ⟨after, proper, inside, -⟩ := closingTagIn?_within pieceInOrder closing
  exact ⟨between, between.le, after, proper, Nat.le_trans inside pieceWithin⟩

/-! ### Elements -/

/-- A node is an element and in range. -/
abbrev IsElement (length : Nat) (node : Node) : Prop :=
  node.InRange length ∧ htmlRegion? node = none

/-- Reading a region gives nodes that stand in the region. -/
def ReadsPlaced (length : Nat) (failure : ParseError → Prop) (read : FragmentReader) : Prop :=
  ∀ start stop, start ≤ stop → stop ≤ length →
    Traced.Ends (Placed length start stop) failure (read start stop)

/-- Folding elements leaves nodes where they stand. -/
def FoldsPlaced (length : Nat) (failure : ParseError → Prop) (fold : Folder) : Prop :=
  ∀ lower upper nodes, upper ≤ length → Placed length lower upper nodes →
    Traced.Ends (Placed length lower upper) failure (fold nodes)

theorem Placed.append {middle : Nat} {others : List Node} (first : Placed length lower middle nodes)
    (second : Placed length middle upper others) : Placed length lower upper (nodes ++ others) where
  html := first.html.append second.html
  inRange := List.forall_mem_append.mpr ⟨first.inRange, second.inRange⟩

/-- Behind a node, the siblings stand in what the node leaves. -/
theorem Placed.exists_middle (placed : Placed length lower upper (node :: rest)) :
    ∃ middle, lower ≤ middle ∧ Placed length middle upper rest ∧
      ∀ kept, HtmlWithin middle upper kept → HtmlWithin lower upper (node :: kept) := by
  obtain ⟨middle, less, siblings, put⟩ := placed.html.exists_middle
  exact ⟨middle, less, ⟨siblings, (List.forall_mem_cons.mp placed.inRange).2⟩, put⟩

/-- The piece of raw HTML in which an element ends stands behind the siblings that belong to the
element. -/
theorem Placed.of_ending? {source name : Text} {depth : Nat} {e : Ending}
    (placed : Placed length lower upper rest) (found : ending? source name depth rest = some e) :
    Placed length lower e.start e.between ∧
      (lower ≤ e.start ∧ e.start ≤ e.tag.1 ∧ e.tag.1 ≤ e.tag.2 ∧ e.tag.2 ≤ upper) := by
  obtain ⟨between, bounds⟩ := placed.html.of_ending? found
  obtain ⟨piece, others, pieceStop, parts, -, -⟩ := ending?_among found
  refine ⟨⟨between, fun sibling member => placed.inRange sibling ?_⟩, bounds⟩
  rw [parts]
  exact List.mem_append_left _ member

variable {source : Text} {failure : ParseError → Prop} {read : FragmentReader} {fold : Folder}

/-- What an element says of itself, with a given span. -/
def tagInfo (tag : JsxTag) (span : Span) : NodeInfo :=
  { kind := .jsxElement, name := some tag.name, attributes := tag.attributes, span := some span }

/-- What reading an element comes to. The element may be its opening tag alone, it may end in the
piece of raw HTML in which it starts, or in a later one; then its children are those of the two
pieces and the siblings between them. -/
theorem element?_ends_of {result : Option (Node × Nat) → Prop} (absent : result none)
    (opened : ∀ start stop tag, htmlRegion? node = some (start, stop) →
      Jsx.readTag? source start stop = some tag →
      result (some (.mk (tagInfo tag tag.span) [], 0)) ∧
        (tag.selfClosing = false →
          (∀ closing, closingTagIn? source tag.name tag.span.stop.toNat stop = some closing →
            Traced.Ends (fun children =>
                result (some (.mk (tagInfo tag (Span.ofNats start closing.2)) children, 0)))
              failure (read tag.span.stop.toNat closing.1)) ∧
          Traced.Ends (fun before => ∀ e, ending? source tag.name 0 rest = some e →
              Traced.Ends (fun after => Traced.Ends (fun children =>
                    result (some (.mk (tagInfo tag (Span.ofNats start e.tag.2)) children,
                      e.between.length + 1)))
                  failure (fold (before ++ e.between ++ after)))
                failure (read e.start e.tag.1))
            failure (read tag.span.stop.toNat stop))) :
    Traced.Ends result failure (element? source read fold node rest) := by
  unfold element?
  split
  · rename_i start stop html
    split
    · rename_i tag isTag
      obtain ⟨alone, filled⟩ := opened start stop tag html isTag
      dsimp only
      split
      · exact Traced.ends_pure alone
      · rename_i isOpen
        obtain ⟨near, far⟩ := filled (by simpa using isOpen)
        split
        · rename_i closing isClosing
          exact (near closing isClosing).map fun children holds => holds
        · apply far.bind
          intro before later
          split
          · rename_i e isEnding
            exact (later e isEnding).bind fun after folded => folded.map fun children holds => holds
          · exact (Traced.ends_log _).bind fun _ _ => Traced.ends_pure alone
    · exact Traced.ends_pure absent
  · exact Traced.ends_pure absent

theorem isElement_mk {tag : JsxTag} {start stop : Nat} {children : List Node}
    (inOrder : start ≤ stop) (within : stop ≤ length)
    (attributes : ∀ a ∈ tag.attributes, a.InRange length)
    (below : ∀ child ∈ children, child.InRange length) :
    IsElement length (.mk (tagInfo tag (Span.ofNats start stop)) children) := by
  refine ⟨.mk ⟨?_, attributes, by simp [tagInfo]⟩ below, rfl⟩
  intro s placed
  cases placed
  exact Span.ofNats_inside inOrder within

/-- The element that a node opens is in range. -/
theorem element?_ends (reads : ReadsPlaced source.length failure read)
    (folds : FoldsPlaced source.length failure fold) (within : upper ≤ source.length)
    (placed : Placed source.length lower upper (node :: rest)) :
    Traced.Ends (fun found => ∀ element ∈ found, IsElement source.length element.1) failure
      (element? source read fold node rest) := by
  refine element?_ends_of (by simp) fun start stop tag html isTag => ?_
  obtain ⟨after, inOrder, others⟩ := (htmlWithin_cons_some html).mp placed.html
  have stopWithin : stop ≤ source.length := Nat.le_trans others.le within
  obtain ⟨tagStop, span, tagFilled, tagWithin, opens, attributes⟩ :=
    Jsx.readTag?_within inOrder stopWithin isTag
  have tagInOrder := Nat.le_of_lt tagFilled
  have tagStopEq : tag.span.stop.toNat = tagStop := by
    rw [span]
    rfl
  rw [tagStopEq, span]
  refine ⟨by simpa using isElement_mk tagInOrder tagWithin attributes (by simp), fun isOpen => ?_⟩
  have tagBefore : tagStop ≤ stop := opens (Or.inl isOpen)
  constructor
  · intro closing isClosing
    have bounds := closingTagIn?_within tagBefore isClosing
    apply (reads tagStop closing.1 bounds.1 (by omega)).imp
    intro children below
    simpa using isElement_mk (by omega) (by omega) attributes below.inRange
  · apply (reads tagStop stop tagBefore stopWithin).imp
    intro before beforePlaced e isEnding
    have siblings : Placed source.length stop upper rest :=
      ⟨others, (List.forall_mem_cons.mp placed.inRange).2⟩
    obtain ⟨between, gap, afterPiece, proper, inside⟩ := siblings.of_ending? isEnding
    apply (reads e.start e.tag.1 afterPiece (by omega)).imp
    intro after afterPlaced
    have content := (beforePlaced.append between).append afterPlaced
    apply (folds _ _ _ (by omega) content).imp
    intro children below
    simpa using isElement_mk (by omega) (by omega) attributes below.inRange

/-- Folding leaves nodes in range and in order: it takes siblings away and puts elements in the
place of raw HTML. -/
theorem foldFrom_ends (reads : ReadsPlaced source.length failure read)
    (folds : FoldsPlaced source.length failure fold) (within : upper ≤ source.length) (skip : Nat)
    (placed : Placed source.length lower upper nodes) :
    Traced.Ends (Placed source.length lower upper) failure
      (foldFrom source read fold skip nodes) := by
  induction nodes generalizing lower skip with
  | nil =>
      exact Traced.ends_pure placed
  | cons node rest hypothesis =>
      have first := (List.forall_mem_cons.mp placed.inRange).1
      obtain ⟨middle, less, restPlaced, put⟩ := placed.exists_middle
      have widen : ∀ {kept : List Node}, Placed source.length middle upper kept →
          Placed source.length lower upper kept :=
        fun kept => ⟨kept.html.mono less (Nat.le_refl _), kept.inRange⟩
      cases skip with
      | succ skip =>
          rw [foldFrom]
          exact (hypothesis skip restPlaced).imp fun kept => widen
      | zero =>
          rw [foldFrom]
          refine (element?_ends reads folds within placed).bind fun found isElement => ?_
          cases found with
          | none =>
              apply (hypothesis 0 restPlaced).map
              intro kept keptPlaced
              exact ⟨put kept keptPlaced.html, List.forall_mem_cons.mpr ⟨first, keptPlaced.inRange⟩⟩
          | some result =>
              obtain ⟨element, consumed⟩ := result
              obtain ⟨inRange, noHtml⟩ := isElement _ rfl
              apply (hypothesis consumed restPlaced).map
              intro kept keptPlaced
              exact ⟨(htmlWithin_cons_none noHtml).mpr (widen keptPlaced).html,
                List.forall_mem_cons.mpr ⟨inRange, keptPlaced.inRange⟩⟩

end MdxLocalization.Document
