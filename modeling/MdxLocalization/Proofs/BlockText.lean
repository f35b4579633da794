import Mathlib.Data.List.Basic
import MdxLocalization.Proofs.InlineTiling
import MdxLocalization.Proofs.Patching
import MdxLocalization.Proofs.SurveyOrder

/-!
# The text of a block without links

A block is written child by child, and each child loses a line break at its end. Where no address is
rewritten, a child is written as its slice of the source, so the text of the block is the source of
the region with the line breaks that end a child left out. It is the source itself exactly when no
child but the last ends a line.
-/

namespace MdxLocalization

/-! ### Line breaks at the end of a text -/

namespace Text

theorem dropLineBreak_eq_self {t : Text} (open' : t.getLast? ≠ some '\n') :
    dropLineBreak t = t := by
  rw [List.getLast?_eq_head?_reverse] at open'
  unfold dropLineBreak
  split
  · rename_i ends
    simp [ends] at open'
  · rename_i ends
    simp [ends] at open'
  · rfl

theorem length_dropLineBreak_lt {t : Text} (ends : t.getLast? = some '\n') :
    (dropLineBreak t).length < t.length := by
  rw [List.getLast?_eq_head?_reverse] at ends
  rw [show t.length = t.reverse.length from List.length_reverse.symm]
  unfold dropLineBreak
  split
  · rename_i rest reversed
    rw [reversed, List.length_reverse, List.length_cons, List.length_cons]
    omega
  · rename_i rest reversed
    rw [reversed, List.length_reverse, List.length_cons]
    omega
  · rename_i other
    cases reversed : t.reverse with
    | nil =>
        rw [reversed] at ends
        cases ends
    | cons c rest =>
        rw [reversed] at ends
        cases ends
        exact absurd reversed (other rest)

theorem length_dropLineBreak_le (t : Text) : (dropLineBreak t).length ≤ t.length := by
  by_cases ends : t.getLast? = some '\n'
  · exact Nat.le_of_lt (length_dropLineBreak_lt ends)
  · exact Nat.le_of_eq (congrArg List.length (dropLineBreak_eq_self ends))

/-- Pieces that each lose a line break at their end make up the whole only when none of them has
one there. -/
theorem flatMap_dropLineBreak_eq_iff {pieces : List Text} :
    pieces.flatMap dropLineBreak = pieces.flatten ↔
      ∀ piece ∈ pieces, piece.getLast? ≠ some '\n' := by
  have shorter : ∀ rest : List Text,
      (rest.flatMap dropLineBreak).length ≤ rest.flatten.length := by
    intro rest
    induction rest with
    | nil =>
        exact Nat.le_refl _
    | cons piece rest hypothesis =>
        have here := length_dropLineBreak_le piece
        rw [List.flatMap_cons, List.flatten_cons, List.length_append, List.length_append]
        omega
  induction pieces with
  | nil =>
      simp
  | cons piece rest hypothesis =>
      rw [List.flatMap_cons, List.flatten_cons, List.forall_mem_cons]
      constructor
      · intro same
        have sizes := congrArg List.length same
        rw [List.length_append, List.length_append] at sizes
        have restShorter := shorter rest
        have kept : piece.getLast? ≠ some '\n' := by
          intro ends
          have lost := length_dropLineBreak_lt ends
          omega
        rw [dropLineBreak_eq_self kept] at same
        exact ⟨kept, hypothesis.mp (List.append_cancel_left same)⟩
      · rintro ⟨kept, same⟩
        rw [dropLineBreak_eq_self kept, hypothesis.mpr same]

theorem window_ofNats {t : Text} {start stop : Nat} (within : stop ≤ t.length)
    (inOrder : start ≤ stop) : window t start stop = slice t start stop := by
  unfold window clamp
  rw [if_neg (by omega), if_neg (by omega)]
  congr 1 <;> omega

end Text

namespace Extract

open Inline (Tiles)

/-- The source in the span of a node. -/
def sliceOf (source : Text) (node : Node) : Text := (node.span.map (·.slice source)).getD []

theorem sliceOf_placed {source : Text} {node : Node} {start stop : Nat}
    (placed : node.span = some (Span.ofNats start stop)) (within : stop ≤ source.length)
    (inOrder : start ≤ stop) : sliceOf source node = Text.slice source start stop := by
  rw [sliceOf, placed]
  exact Text.window_ofNats within inOrder

/-- Nodes that tile a region hold the source of the region between them. -/
theorem flatten_sliceOf {source : Text} {start stop : Nat} {nodes : List Node}
    (tiles : Tiles start stop nodes) (within : stop ≤ source.length) :
    (nodes.map (sliceOf source)).flatten = Text.slice source start stop := by
  induction nodes generalizing start with
  | nil =>
      rw [show start = stop from tiles]
      simp [Text.slice]
  | cons node rest hypothesis =>
      obtain ⟨next, placed, filled, others⟩ := tiles
      have reached := others.le
      rw [List.map_cons, List.flatten_cons, hypothesis others,
        sliceOf_placed placed (Nat.le_trans reached within) (Nat.le_of_lt filled),
        Text.slice_append_slice source (Nat.le_of_lt filled) reached]

/-! ### Blocks of leaves -/

variable {s : Settings}

/-- A leaf that the survey leaves alone. -/
inductive PlainLeaf : Node → Prop where
  | mk {info : NodeInfo} (kind : info.kind ∈ [NodeKind.text, .image, .inlineCode]) :
      PlainLeaf (.mk info [])

theorem survey_plainLeaf {node : Node} (plain : PlainLeaf node) (top : Bool) :
    survey s top node = { after := node, result := .ok [] } := by
  obtain ⟨kind⟩ := plain
  simp only [List.mem_cons, List.not_mem_nil, or_false] at kind
  rcases kind with kind | kind | kind <;> simp [survey, kind, mayHoldContent]

/-- A leaf is written as its slice of the source. -/
theorem childText_plainLeaf {source : Text} {node : Node} (plain : PlainLeaf node)
    (placed : node.span.isSome) :
    childText source node = Text.dropLineBreak (sliceOf source node) := by
  obtain ⟨kind⟩ := plain
  rename_i info
  obtain ⟨span, known⟩ := Option.isSome_iff_exists.mp placed
  change info.span = some span at known
  simp only [List.mem_cons, List.not_mem_nil, or_false] at kind
  rcases kind with kind | kind | kind <;>
    simp [childText, sourceText, sourceBetween, sliceOf, Node.kind, Node.span, Node.info, kind,
      known, Span.slice]

/-- The text of a block of leaves: each child loses the line break at its end. -/
def brokenText (source : Text) (children : List Node) : Text :=
  (children.map (sliceOf source)).flatMap Text.dropLineBreak

/-- A leaf goes into the stretch that is being collected. -/
theorem surveyBlock_cons_plain {current : Option Stretch} {child : Node} {rest : List Node}
    {span : Span} (plain : PlainLeaf child) (placed : child.span = some span) :
    (surveyBlock s current (child :: rest)).result =
      (surveyBlock s
        (some (extend current (Text.dropLineBreak (sliceOf s.source child)) span))
        rest).result := by
  have known : child.info.spanOrFail = .ok span := by
    simp [NodeInfo.spanOrFail, show child.info.span = some span from placed]
  have noList : child.kind ≠ .list := by
    obtain ⟨kind⟩ := plain
    intro list
    simp_all [Node.kind, Node.info]
  rw [surveyBlock, ← childText_plainLeaf plain (by simp [placed])]
  simp only [survey_plainLeaf plain, List.isEmpty_nil, Bool.not_true, Bool.false_or,
    decide_eq_true_eq, noList, if_false, known]

/-- Leaves that tile a region all go into the stretch that is being collected. -/
theorem surveyBlock_plain {text : Text} {first : Int} {start stop : Nat} {children : List Node}
    (tiles : Tiles start stop children) (plain : ∀ child ∈ children, PlainLeaf child) :
    (surveyBlock s (some ⟨text, ⟨first, start⟩⟩) children).result =
      .ok [.stretch (text ++ brokenText s.source children) ⟨first, stop⟩] := by
  induction children generalizing text start with
  | nil =>
      rw [show start = stop from tiles]
      simp [surveyBlock, finish, brokenText]
  | cons child rest hypothesis =>
      obtain ⟨next, placed, -, others⟩ := tiles
      obtain ⟨leaf, plainRest⟩ := List.forall_mem_cons.mp plain
      rw [surveyBlock_cons_plain leaf placed]
      refine (hypothesis others plainRest).trans ?_
      simp [brokenText]

theorem survey_block_plain {info : NodeInfo} {start stop : Nat} {children : List Node}
    (kind : info.kind ∈ [NodeKind.heading, .paragraph, .tableCell]) (placed : info.span.isSome)
    (filled : start < stop) (tiles : Tiles start stop children)
    (plain : ∀ child ∈ children, PlainLeaf child) :
    (survey s true (.mk info children)).result =
      .ok [⟨.content, brokenText s.source children, .ofNats start stop, []⟩] := by
  cases children with
  | nil =>
      exact absurd tiles (Nat.ne_of_lt filled)
  | cons child rest =>
      obtain ⟨next, childPlaced, -, others⟩ := tiles
      obtain ⟨leaf, plainRest⟩ := List.forall_mem_cons.mp plain
      have collected : (surveyBlock s none (child :: rest)).result =
          .ok [.stretch (brokenText s.source (child :: rest)) (.ofNats start stop)] := by
        rw [surveyBlock_cons_plain leaf childPlaced]
        exact surveyBlock_plain others plainRest
      rw [survey_block kind placed, collected]
      simp [Except.map, changesOfItems, Span.ofNats, filled]

/-! ### Documents of one block -/

/-- The only block of a document: a paragraph or a heading, or the cell of a table. -/
inductive OnlyBlock : Node → List Node → Prop where
  | alone {block : Node} (kind : block.kind = .paragraph ∨ block.kind = .heading) :
      OnlyBlock block [block]
  | cell {block : Node} {table row : NodeInfo} (kind : block.kind = .tableCell)
      (kinds : table.kind = .table ∧ row.kind = .tableRow)
      (placed : table.span.isSome ∧ row.span.isSome) :
      OnlyBlock block [.mk table [.mk row [block]]]

theorem surveyAll_single {top : Bool} {node : Node} {changes : List Change}
    (surveyed : (survey s top node).result = .ok changes) :
    (surveyAll s top [node]).result = .ok changes := by
  simp [surveyAll, surveyed, Except.map]

theorem surveyTopLevel_single {node : Node} {changes : List Change}
    (kind : isTopLevelKind node.kind = true)
    (surveyed : (survey s true node).result = .ok changes) :
    (surveyTopLevel s [node]).result = .ok changes := by
  simp [surveyTopLevel, kind, surveyed, Except.map]

theorem surveyDocument_onlyBlock {block root : Node} {changes : List Change}
    (only : OnlyBlock block root.children) (surveyed : (survey s true block).result = .ok changes) :
    (surveyDocument s root).result = .ok changes := by
  change (surveyTopLevel s root.children).result = .ok changes
  generalize root.children = nodes at only
  cases only with
  | alone kind =>
      exact surveyTopLevel_single (by rcases kind with kind | kind <;> rw [kind] <;> rfl) surveyed
  | @cell table row kind kinds placed =>
      have cell : (survey s true (.mk row [block])).result = .ok changes := by
        rw [survey_flat (by simp [kinds.2]) placed.2, surveyAll_single surveyed]
      have rows : (survey s true (.mk table [.mk row [block]])).result = .ok changes := by
        rw [survey_flat (by simp [kinds.1]) placed.1, surveyAll_single cell]
      have topLevel : isTopLevelKind (Node.mk table [.mk row [block]]).kind = true := by
        rw [show (Node.mk table [.mk row [block]]).kind = .table from kinds.1]
        rfl
      exact surveyTopLevel_single topLevel rows

theorem OnlyBlock.kind_mem {block : Node} {nodes : List Node} (only : OnlyBlock block nodes) :
    block.kind ∈ [NodeKind.heading, .paragraph, .tableCell] := by
  cases only with
  | alone kind =>
      rcases kind with kind | kind <;> simp [kind]
  | cell kind =>
      simp [kind]

theorem plainLeaf_of_piece {node : Node} (piece : Inline.Piece node) (noLink : node.kind ≠ .link) :
    PlainLeaf node := by
  cases piece with
  | leaf kind =>
      exact .mk kind
  | link kind =>
      exact absurd kind noLink

/-- The last child ends the region, so it has no line break to lose when the region has none. -/
theorem brokenText_eq_iff {source : Text} {start stop : Nat} {children : List Node}
    (tiles : Tiles start stop children) (within : stop ≤ source.length)
    (openEnd : (Text.slice source start stop).getLast? ≠ some '\n') :
    brokenText source children = Text.slice source start stop ↔
      ∀ child ∈ children.dropLast, (sliceOf source child).getLast? ≠ some '\n' := by
  rw [← flatten_sliceOf tiles within] at openEnd ⊢
  rw [brokenText, Text.flatMap_dropLineBreak_eq_iff, List.forall_mem_map]
  obtain rfl | ⟨front, last, rfl⟩ := List.eq_nil_or_concat' children
  · simp
  · have lastOpen : (sliceOf source last).getLast? ≠ some '\n' := by
      intro ends
      simp [ends] at openEnd
    rw [List.dropLast_concat, List.forall_mem_append, List.forall_mem_singleton]
    exact and_iff_left lastOpen

/-- Putting the text of a region back restores the source only if it is the source there. -/
theorem apply_region_eq_iff {source text : Text} {start stop : Nat} (filled : start < stop)
    (within : stop ≤ source.length) :
    Patch.apply id source [⟨.content, text, .ofNats start stop, []⟩] = .ok source ↔
      text = Text.slice source start stop := by
  have fits : ∀ c ∈ [(⟨.content, text, .ofNats start stop, []⟩ : Change)],
      c.span.Fits source.length := by
    refine List.forall_mem_singleton.mpr ⟨?_, ?_, ?_⟩ <;> simp only [Span.ofNats] <;> omega
  have whole :
      source.take start ++ (Text.slice source start stop ++ source.drop stop) = source := by
    rw [Text.slice_append_drop source (Nat.le_of_lt filled), List.take_append_drop]
  rw [Patch.apply_of_inOrder (List.Perm.refl _) fits (List.pairwise_singleton _ _)]
  simp only [Patch.weave, Span.ofNats, Int.toNat_natCast, Text.slice_zero, id_eq,
    List.append_assoc, Except.ok.injEq]
  constructor
  · intro restored
    have sameRest := List.append_cancel_left (restored.trans whole.symm)
    exact List.append_cancel_right sameRest
  · rintro rfl
    exact whole

/-- A region without links that is the only block of a document, and whose last line is open, gives
one content change for the whole region. Its text is the source of the region without the line
breaks that end a child. So it is the source of the region, and the change put back unaltered gives
the source again, exactly when no child but the last ends in a line break. -/
theorem surveyDocument_region {root : Node} {info : NodeInfo} {children : List Node}
    {start stop : Nat} (only : OnlyBlock (.mk info children) root.children)
    (placed : info.span = some (.ofNats start stop)) (filled : start < stop)
    (scanned : Inline.scan s.source start stop = .ok children)
    (noLink : ∀ child ∈ children, child.kind ≠ .link)
    (openEnd : (Text.slice s.source start stop).getLast? ≠ some '\n') :
    ∃ text, (surveyDocument s root).result = .ok [⟨.content, text, .ofNats start stop, []⟩] ∧
      text = (children.map (sliceOf s.source)).flatMap Text.dropLineBreak ∧
      (text = Text.slice s.source start stop ↔
        ∀ child ∈ children.dropLast, (sliceOf s.source child).getLast? ≠ some '\n') ∧
      (Patch.apply id s.source [⟨.content, text, .ofNats start stop, []⟩] = .ok s.source ↔
        ∀ child ∈ children.dropLast, (sliceOf s.source child).getLast? ≠ some '\n') := by
  have within : stop ≤ s.source.length := by
    by_contra past
    unfold Inline.scan at scanned
    simp [filled, Nat.lt_of_not_le past] at scanned
  obtain ⟨tiles, pieces⟩ := Inline.scan_tiling (Nat.le_of_lt filled)
    (Nat.le_trans (Nat.le_of_lt filled) within) scanned
  have plain : ∀ child ∈ children, PlainLeaf child :=
    fun child member => plainLeaf_of_piece (pieces child member) (noLink child member)
  have surveyed : (survey s true (.mk info children)).result =
      .ok [⟨.content, brokenText s.source children, .ofNats start stop, []⟩] :=
    survey_block_plain only.kind_mem (by simp [placed]) filled tiles plain
  have kept : brokenText s.source children = Text.slice s.source start stop ↔
      ∀ child ∈ children.dropLast, (sliceOf s.source child).getLast? ≠ some '\n' :=
    brokenText_eq_iff tiles within openEnd
  refine ⟨_, surveyDocument_onlyBlock only surveyed, rfl, kept, ?_⟩
  exact (apply_region_eq_iff filled within).trans kept

/-- A cell with a soft break inside a text, a code span and an image. -/
theorem surveyDocument_region_cell :
    let s : Settings :=
      ⟨Text.ofString "ab\ncd `e` ![f](g)", Text.ofString "en", Text.ofString "locale"⟩
    let placed (kind : NodeKind) : NodeInfo := { kind, span := some (.ofNats 1 17) }
    ∃ children, Inline.scan s.source 1 17 = .ok children ∧ children.length = 4 ∧
      let row : Node := .mk (placed .tableRow) [.mk (placed .tableCell) children]
      let change : Change :=
        ⟨.content, Text.ofString "b\ncd `e` ![f](g)", .ofNats 1 17, []⟩
      (surveyDocument s (.mk { kind := .root } [.mk (placed .table) [row]])).result =
          .ok [change] ∧
        Patch.apply id s.source [change] = .ok s.source := by
  intro s placed
  let shape : Node → NodeKind × Text := fun node => (node.kind, sliceOf s.source node)
  have shapes : (Inline.scan s.source 1 17).map (List.map shape) =
      .ok [(.text, Text.ofString "b\ncd "), (.inlineCode, Text.ofString "`e`"), (.text, [' ']),
        (.image, Text.ofString "![f](g)")] := by
    decide +kernel
  cases scanned : Inline.scan s.source 1 17 with
  | error e =>
      rw [scanned] at shapes
      cases shapes
  | ok children =>
      rw [scanned] at shapes
      have parts := Except.ok.inj shapes
      have noLink : ∀ child ∈ children, child.kind ≠ .link := by
        have each : ∀ part ∈ children.map shape, part.1 ≠ .link := by
          rw [parts]
          decide
        exact fun child member => each (shape child) (List.mem_map_of_mem member)
      have kept : ∀ child ∈ children.dropLast, (sliceOf s.source child).getLast? ≠ some '\n' := by
        have each : ∀ part ∈ children.dropLast.map shape, part.2.getLast? ≠ some '\n' := by
          rw [List.map_dropLast, parts]
          decide
        exact fun child member => each (shape child) (List.mem_map_of_mem member)
      refine ⟨children, rfl, by simpa using congrArg List.length parts, ?_⟩
      intro row change
      let root : Node := .mk { kind := .root } [.mk (placed .table) [row]]
      have only : OnlyBlock (.mk (placed .tableCell) children) root.children :=
        .cell rfl ⟨rfl, rfl⟩ ⟨rfl, rfl⟩
      obtain ⟨text, surveyed, -, same, restored⟩ :=
        surveyDocument_region (s := s) only rfl (by decide) scanned noLink (by decide)
      have whole : text = change.text := same.mpr kept
      rw [whole] at surveyed restored
      exact ⟨surveyed, restored.mpr kept⟩

/-- The line break between a text and a code span is lost: a paragraph of two lines comes out in
one. -/
theorem not_forall_surveyDocument_region :
    ¬ ∀ (s : Settings) (root : Node) (info : NodeInfo) (children : List Node) (start stop : Nat),
      OnlyBlock (.mk info children) root.children → info.span = some (.ofNats start stop) →
      start < stop → Inline.scan s.source start stop = .ok children →
      (∀ child ∈ children, child.kind ≠ .link) →
      (Text.slice s.source start stop).getLast? ∉ [some '\n', some '\r'] →
      ∃ notes, (surveyDocument s root).result =
        .ok [⟨.content, Text.slice s.source start stop, .ofNats start stop, notes⟩] := by
  intro claimed
  let s : Settings := ⟨Text.ofString "a\n`b`", Text.ofString "en", Text.ofString "locale"⟩
  let info : NodeInfo := { kind := .paragraph, span := some (.ofNats 0 5) }
  let children : List Node :=
    [.mk { kind := .text, value := some ['a', '\n'], span := some (.ofNats 0 2) } [],
      Inline.codeNode 2 ['b'] 3]
  have scanned : Inline.scan s.source 0 5 = .ok children := by
    cbv
  have surveyed : (surveyDocument s (.mk { kind := .root } [.mk info children])).result =
      .ok [⟨.content, Text.ofString "a`b`", .ofNats 0 5, []⟩] := by
    cbv
  obtain ⟨notes, given⟩ := claimed s (.mk { kind := .root } [.mk info children]) info children 0 5
    (.alone (.inl rfl)) rfl (by decide) scanned (by decide) (by decide)
  have texts := congrArg (fun result => result.toOption.map (·.map Change.text))
    (surveyed.symm.trans given)
  exact absurd texts (by simpa [Except.toOption, s] using by decide)

end Extract

end MdxLocalization
