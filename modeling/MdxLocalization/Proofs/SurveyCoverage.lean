import MdxLocalization.Proofs.SurveyBounds

/-!
# What a survey covers

A survey visits blocks through lists, tables, accordion items and directives, wherever they stand in
one another. No text of a visited block is lost and none is given twice: of all changes of the
document exactly one covers the text of the block.

The changes of a node lie between those of its siblings, so whatever covers a range inside the node
is a change of the node. This is carried from the block up to the document along the way on which
the block was reached.
-/

namespace MdxLocalization

/-- The span holds another one. -/
def Span.Covers (outer inner : Span) : Prop :=
  outer.start ≤ inner.start ∧ inner.stop ≤ outer.stop

instance (outer inner : Span) : Decidable (outer.Covers inner) := by
  unfold Span.Covers
  infer_instance

theorem Span.Covers.refl (span : Span) : span.Covers span :=
  ⟨Int.le_refl _, Int.le_refl _⟩

theorem Span.Covers.trans {outer middle inner : Span} (first : outer.Covers middle)
    (second : middle.Covers inner) : outer.Covers inner :=
  ⟨Int.le_trans first.1 second.1, Int.le_trans second.2 first.2⟩

namespace Extract

variable {s : Settings} {range : Span} {property : Change → Prop}

/-! ### Changes that cover a range -/

def covering (range : Span) (changes : List Change) : List Change :=
  changes.filter fun c => c.span.Covers range

/-- Exactly one change covers a range, and it has a property. -/
def CoveredOnce (range : Span) (property : Change → Prop) (changes : List Change) : Prop :=
  ∃ c, covering range changes = [c] ∧ property c

theorem covering_append (changes others : List Change) :
    covering range (changes ++ others) = covering range changes ++ covering range others :=
  List.filter_append _ _

/-- Changes that stay before a range, or behind it, do not cover it. -/
theorem Inside.covering_eq_nil {lower upper : Int} {changes : List Change}
    (inside : Inside lower upper changes) (filled : range.start < range.stop)
    (apart : upper ≤ range.start ∨ range.stop ≤ lower) : covering range changes = [] := by
  refine List.filter_eq_nil_iff.mpr fun c member covers => ?_
  obtain ⟨before, behind⟩ := of_decide_eq_true covers
  have bounds := inside c member (by omega)
  omega

theorem CoveredOnce.append_right {changes others : List Change}
    (once : CoveredOnce range property changes) (none : covering range others = []) :
    CoveredOnce range property (changes ++ others) := by
  obtain ⟨c, found, given⟩ := once
  exact ⟨c, by rw [covering_append, none, found, List.append_nil], given⟩

theorem CoveredOnce.append_left {changes others : List Change}
    (once : CoveredOnce range property changes) (none : covering range others = []) :
    CoveredOnce range property (others ++ changes) := by
  obtain ⟨c, found, given⟩ := once
  exact ⟨c, by rw [covering_append, none, found, List.nil_append], given⟩

theorem CoveredOnce.ne_nil {changes : List Change} (once : CoveredOnce range property changes) :
    changes ≠ [] := by
  rintro rfl
  obtain ⟨c, found, -⟩ := once
  cases found

/-! ### From a child to its siblings -/

theorem surveyAll_coveredOnce {top : Bool} {lower upper : Int} {children : List Node}
    {child : Node} {span : Span} (spaced : Node.Spaced lower upper children)
    (each : ∀ node ∈ children, StaysInside s node) (member : child ∈ children)
    (placed : child.span = some span) (covers : span.Covers range)
    (filled : range.start < range.stop)
    (once : Yields s (CoveredOnce range property) (survey s top child).result) :
    Yields s (CoveredOnce range property) (surveyAll s top children).result := by
  induction children generalizing lower with
  | nil =>
      cases member
  | cons first rest hypothesis =>
      obtain ⟨firstSpan, firstPlaced, -, proper, others⟩ := spaced
      obtain ⟨head, tail⟩ := List.forall_mem_cons.mp each
      rcases List.mem_cons.mp member with rfl | inRest
      · cases placed.symm.trans firstPlaced
        refine once.surveyAll_cons (surveyAll_inside others tail) ?_
        intro changes later found behind
        exact found.append_right (behind.covering_eq_nil filled (.inr covers.2))
      · obtain ⟨childSpan, known, after, -⟩ := others.bounds inRest
        cases placed.symm.trans known
        refine (head top firstSpan firstPlaced).1.surveyAll_cons (hypothesis others tail inRest) ?_
        intro changes later before found
        exact found.append_left
          (before.covering_eq_nil filled (.inl (Int.le_trans after covers.1)))

/-- Where a change of a child covers the range, the child stands apart from the stretches, and
nothing else in the block covers it. -/
theorem surveyBlock_coveredOnce {lower cursor upper : Int} {current : Option Stretch}
    {children : List Node} {child : Node} {span : Span}
    (within : StretchWithin lower cursor current) (spaced : Node.Spaced cursor upper children)
    (each : ∀ node ∈ children, StaysInside s node) (member : child ∈ children)
    (placed : child.span = some span) (covers : span.Covers range)
    (filled : range.start < range.stop)
    (once : Yields s (CoveredOnce range property) (survey s false child).result) :
    Yields s (fun items => ∀ withStretches notes,
        CoveredOnce range property (changesOfItems withStretches notes items))
      (surveyBlock s current children).result := by
  induction children generalizing lower cursor current with
  | nil =>
      cases member
  | cons first rest hypothesis =>
      obtain ⟨firstSpan, firstPlaced, firstAfter, proper, others⟩ := spaced
      obtain ⟨head, tail⟩ := List.forall_mem_cons.mp each
      rcases List.mem_cons.mp member with rfl | inRest
      · cases placed.symm.trans firstPlaced
        refine Yields.surveyBlock_cons placed once ?_ fun found => (found.ne_nil rfl).elim
        intro changes found _
        refine (surveyBlock_inside (stretchWithin_none span.stop) others tail).imp ?_
        intro items behind withStretches notes
        rw [changesOfItems_append, changesOfItems_append, changesOfItems_changes]
        have noneBehind := (behind withStretches notes).covering_eq_nil filled (.inr covers.2)
        have noneBefore := (inside_finish within withStretches notes).covering_eq_nil filled
          (.inl (Int.le_trans firstAfter covers.1))
        exact (found.append_left noneBefore).append_right noneBehind
      · obtain ⟨childSpan, known, after, -⟩ := others.bounds inRest
        cases placed.symm.trans known
        have behindFirst : firstSpan.stop ≤ range.start := Int.le_trans after covers.1
        refine Yields.surveyBlock_cons firstPlaced (head false firstSpan firstPlaced).1 ?_ ?_
        · intro changes inside _
          refine (hypothesis (stretchWithin_none _) others tail inRest).imp ?_
          intro items found withStretches notes
          rw [changesOfItems_append, changesOfItems_append, changesOfItems_changes]
          have collected := inside_finish within withStretches notes
          have noneBefore :=
            (collected.mono (Int.le_refl _) (Int.le_trans firstAfter proper)).append
            (inside.mono (Int.le_trans within.le firstAfter) (Int.le_refl _))
          exact (found withStretches notes).append_left
            (noneBefore.covering_eq_nil filled (.inl behindFirst))
        · intro _ _ text
          exact hypothesis (within.extend text firstAfter proper) others tail inRest

/-! ### Stretches -/

/-- One stretch of a block covers a range, and nothing else in the block does. -/
def InOneStretch (range : Span) (items : List BlockItem) : Prop :=
  ∃ text span, .stretch text span ∈ items ∧ ∀ notes,
    covering range (changesOfItems true notes items) = [⟨.content, text, span, notes⟩]

theorem InOneStretch.append_left {items before : List BlockItem} (found : InOneStretch range items)
    (none : ∀ notes, covering range (changesOfItems true notes before) = []) :
    InOneStretch range (before ++ items) := by
  obtain ⟨text, span, member, only⟩ := found
  refine ⟨text, span, List.mem_append_right before member, fun notes => ?_⟩
  rw [changesOfItems_append, covering_append, none, only, List.nil_append]

theorem inOneStretch_finish {stretch : Stretch} {behind : List BlockItem}
    (covers : stretch.span.Covers range) (filled : range.start < range.stop)
    (none : ∀ notes, covering range (changesOfItems true notes behind) = []) :
    InOneStretch range (finish (some stretch) ++ behind) := by
  refine ⟨stretch.text, stretch.span, List.mem_cons_self, fun notes => ?_⟩
  have nonempty : stretch.span.start < stretch.span.stop := by
    have := covers.1
    have := covers.2
    omega
  have single : changesOfItems true notes (finish (some stretch)) =
      [⟨.content, stretch.text, stretch.span, notes⟩] := by
    simp [changesOfItems, finish, nonempty]
  rw [changesOfItems_append, covering_append, none, single]
  simp [covering, covers]

theorem surveyBlock_inOneStretch_of_current {lower cursor upper : Int} {stretch : Stretch}
    {children : List Node} (within : StretchWithin lower cursor (some stretch))
    (spaced : Node.Spaced cursor upper children) (each : ∀ node ∈ children, StaysInside s node)
    (covers : stretch.span.Covers range) (filled : range.start < range.stop) :
    Yields s (InOneStretch range) (surveyBlock s (some stretch) children).result := by
  induction children generalizing lower cursor stretch with
  | nil =>
      unfold surveyBlock
      exact inOneStretch_finish covers filled fun _ => rfl
  | cons child rest hypothesis =>
      obtain ⟨span, placed, after, proper, others⟩ := spaced
      obtain ⟨head, tail⟩ := List.forall_mem_cons.mp each
      have rangeBefore : range.stop ≤ span.start :=
        Int.le_trans covers.2 (Int.le_trans within.2.2 after)
      refine Yields.surveyBlock_cons placed (head false span placed).1 ?_ ?_
      · intro changes inside _
        refine (surveyBlock_inside (stretchWithin_none span.stop) others tail).imp ?_
        intro items behind
        rw [List.append_assoc]
        refine inOneStretch_finish covers filled fun notes => ?_
        rw [changesOfItems_append, changesOfItems_changes]
        have noneBehind := (inside.mono (Int.le_refl _) others.le).append
          ((behind true notes).mono proper (Int.le_refl _))
        exact noneBehind.covering_eq_nil filled (.inr rangeBefore)
      · intro _ _ text
        exact hypothesis (within.extend text after proper) others tail
          ⟨covers.1, Int.le_trans rangeBefore proper⟩

/-- A child that yields nothing and is no list goes into one stretch. -/
theorem surveyBlock_inOneStretch {lower cursor upper : Int} {current : Option Stretch}
    {children : List Node} {child : Node} (within : StretchWithin lower cursor current)
    (spaced : Node.Spaced cursor upper children) (each : ∀ node ∈ children, StaysInside s node)
    (member : child ∈ children) (placed : child.span = some range)
    (silent : (survey s false child).result = .ok []) (noList : child.kind ≠ .list)
    (filled : range.start < range.stop) :
    Yields s (InOneStretch range) (surveyBlock s current children).result := by
  induction children generalizing lower cursor current with
  | nil =>
      cases member
  | cons first rest hypothesis =>
      obtain ⟨span, firstPlaced, after, proper, others⟩ := spaced
      obtain ⟨head, tail⟩ := List.forall_mem_cons.mp each
      rcases List.mem_cons.mp member with rfl | inRest
      · cases placed.symm.trans firstPlaced
        have nothing : Yields s (· = []) (survey s false child).result := by
          rw [silent]
          rfl
        refine Yields.surveyBlock_cons placed nothing ?_ ?_
        · rintro changes rfl (filled | list)
          · exact absurd rfl filled
          · exact absurd list noList
        · intro _ _ text
          refine surveyBlock_inOneStretch_of_current (within.extend text after proper) others tail
            ?_ filled
          refine ⟨?_, by cases current <;> exact Int.le_refl _⟩
          cases current with
          | none =>
              exact Int.le_refl _
          | some stretch =>
              exact Int.le_trans within.2.1 (Int.le_trans within.2.2 after)
      · obtain ⟨childSpan, known, behindFirst, -⟩ := others.bounds inRest
        cases placed.symm.trans known
        refine Yields.surveyBlock_cons firstPlaced (head false span firstPlaced).1 ?_ ?_
        · intro changes inside _
          refine (hypothesis (stretchWithin_none _) others tail inRest).imp ?_
          intro items found
          refine found.append_left fun notes => ?_
          rw [changesOfItems_append, changesOfItems_changes]
          have collected := inside_finish within true notes
          have noneBefore := (collected.mono (Int.le_refl _) (Int.le_trans after proper)).append
            (inside.mono (Int.le_trans within.le after) (Int.le_refl _))
          exact noneBefore.covering_eq_nil filled (.inl behindFirst)
        · intro _ _ text
          exact hypothesis (within.extend text after proper) others tail inRest

/-- The end of the last node, or another position where there is none. -/
def lastStop (other : Int) (nodes : List Node) : Int :=
  ((nodes.getLast?.bind Node.span).map Span.stop).getD other

theorem lastStop_cons {other : Int} {span : Span} {node : Node} {rest : List Node}
    (placed : node.span = some span) (present : ∀ node ∈ rest, node.span.isSome) :
    lastStop other (node :: rest) = lastStop span.stop rest := by
  cases rest with
  | nil =>
      simp [lastStop, placed]
  | cons second rest =>
      obtain ⟨final, last⟩ := Option.isSome_iff_exists.mp
        (present _ (List.getLast_mem (List.cons_ne_nil second rest)))
      simp [lastStop, List.getLast?_eq_some_getLast, last]

/-- A child that yields nothing and is no list. -/
structure Silent (s : Settings) (child : Node) : Prop where
  present : child.span.isSome
  noList : child.kind ≠ .list
  nothing : Yields s (· = []) (survey s false child).result

theorem Yields.surveyBlock_silent {current : Option Stretch} {child : Node} {rest : List Node}
    {span : Span} {whole : List BlockItem → Prop} (silent : Silent s child)
    (placed : child.span = some span)
    (extended : ∀ text,
      Yields s whole (surveyBlock s (some (extend current text span)) rest).result) :
    Yields s whole (surveyBlock s current (child :: rest)).result := by
  refine Yields.surveyBlock_cons placed silent.nothing ?_ fun _ _ => extended
  rintro changes rfl (filled | list)
  · exact absurd rfl filled
  · exact absurd list silent.noList

/-- Silent children make up one stretch, from the first of them to the last. -/
theorem surveyBlock_whole {stretch : Stretch} {children : List Node}
    (silent : ∀ child ∈ children, Silent s child) :
    Yields s (fun items => ∃ text, items =
        [.stretch text ⟨stretch.span.start, lastStop stretch.span.stop children⟩])
      (surveyBlock s (some stretch) children).result := by
  induction children generalizing stretch with
  | nil =>
      unfold surveyBlock
      exact ⟨stretch.text, rfl⟩
  | cons child rest hypothesis =>
      obtain ⟨here, others⟩ := List.forall_mem_cons.mp silent
      obtain ⟨span, placed⟩ := Option.isSome_iff_exists.mp here.present
      refine Yields.surveyBlock_silent here placed fun text => ?_
      rw [lastStop_cons placed fun node member => (others node member).present]
      exact hypothesis others

/-! ### Blocks and directives -/

/-- The range from the first child to the last. -/
def contentSpan (children : List Node) : Option Span := do
  let first ← children.head?.bind Node.span
  let last ← children.getLast?.bind Node.span
  return ⟨first.start, last.stop⟩

theorem contentSpan_cons {span : Span} {node : Node} {rest : List Node}
    (placed : node.span = some span) (present : ∀ node ∈ rest, node.span.isSome) :
    contentSpan (node :: rest) = some ⟨span.start, lastStop span.stop rest⟩ := by
  cases rest with
  | nil =>
      simp [contentSpan, lastStop, placed]
  | cons second rest =>
      obtain ⟨final, last⟩ := Option.isSome_iff_exists.mp
        (present _ (List.getLast_mem (List.cons_ne_nil second rest)))
      simp [contentSpan, lastStop, placed, List.getLast?_eq_some_getLast, last]

theorem contentSpan_within {lower upper : Int} {children : List Node}
    (spaced : Node.Spaced lower upper children) (found : contentSpan children = some range) :
    lower ≤ range.start ∧ range.stop ≤ upper := by
  simp only [contentSpan, Option.bind_eq_bind, Option.bind_eq_some_iff, Option.pure_def,
    Option.some.injEq] at found
  obtain ⟨first, ⟨head, isHead, headSpan⟩, last, ⟨final, isLast, finalSpan⟩, rfl⟩ := found
  obtain ⟨span, known, after, -⟩ := spaced.bounds (List.mem_of_head? isHead)
  obtain ⟨other, otherKnown, -, -, before⟩ := spaced.bounds (List.mem_of_getLast? isLast)
  cases known.symm.trans headSpan
  cases otherKnown.symm.trans finalSpan
  exact ⟨after, before⟩

theorem silent_of_inline {node : Node} (placed : node.span.isSome)
    (kind : node.kind ∈ [NodeKind.text, .link, .image, .inlineCode]) : Silent s node := by
  obtain ⟨info, children⟩ := node
  change info.kind ∈ _ at kind
  change info.span.isSome at placed
  refine ⟨placed, ?_, ?_⟩
  · rintro (list : info.kind = .list)
    simp [list] at kind
  by_cases link : info.kind = .link
  · obtain nothing | ⟨url, e, failed, result⟩ := survey_link s false link placed
    · rw [nothing]
      rfl
    · rw [result]
      exact ⟨url, failed⟩
  · rw [survey_other _ placed]
    · rfl
    · simp only [List.mem_cons, List.not_mem_nil, or_false] at kind
      rcases kind with kind | kind | kind | kind <;> simp_all

/-- A block of inline nodes gives one change at top level, for its whole content. -/
theorem survey_block_coveredOnce {info : NodeInfo} {children : List Node} {lower upper : Int}
    (kind : info.kind ∈ [NodeKind.heading, .paragraph, .tableCell]) (placed : info.span.isSome)
    (spaced : Node.Spaced lower upper children)
    (inline : ∀ child ∈ children, child.kind ∈ [NodeKind.text, .link, .image, .inlineCode])
    (content : contentSpan children = some range) (filled : range.start < range.stop) :
    Yields s (CoveredOnce range fun c => c.kind = .content ∧ c.span = range)
      (survey s true (.mk info children)).result := by
  have silent : ∀ child ∈ children, Silent s child := by
    intro child member
    obtain ⟨span, known, -⟩ := spaced.bounds member
    exact silent_of_inline (by simp [known]) (inline child member)
  have whole : Yields s (fun items => ∃ text, items = [.stretch text range])
      (surveyBlock s none children).result := by
    cases children with
    | nil =>
        cases content
    | cons first rest =>
        obtain ⟨here, others⟩ := List.forall_mem_cons.mp silent
        obtain ⟨span, known⟩ := Option.isSome_iff_exists.mp here.present
        rw [contentSpan_cons known fun node member => (others node member).present] at content
        cases content
        exact Yields.surveyBlock_silent here known fun _ => surveyBlock_whole others
  rw [survey_block kind placed]
  refine whole.map ?_
  rintro items ⟨text, rfl⟩
  refine ⟨⟨.content, text, range, []⟩, ?_, rfl, rfl⟩
  simp [changesOfItems, filled, covering, Span.Covers]

/-- A change of a directive for a stretch of its body. -/
def IsBodyChange (s : Settings) (info : NodeInfo) (children : List Node) (c : Change) : Prop :=
  ∃ items text span, (surveyBlock s none (bodyOf children)).result = .ok items ∧
    .stretch text span ∈ items ∧ c = ⟨.content, text, span, directiveNotes "content" info⟩

theorem LabelChanges.covering_eq_nil {lower upper : Int} {children : List Node} {child : Node}
    {changes : List Change} {span : Span} (label : LabelChanges children changes)
    (spaced : Node.Spaced lower upper children) (member : child ∈ bodyOf children)
    (placed : child.span = some span) (covers : span.Covers range)
    (filled : range.start < range.stop) : covering range changes = [] := by
  obtain rfl | ⟨first, rest, firstSpan, rfl, body, known, c, rfl, place⟩ := label
  · rfl
  · rw [body] at member
    obtain ⟨other, otherKnown, -, -, others⟩ := spaced
    cases known.symm.trans otherKnown
    obtain ⟨childSpan, childKnown, after, -⟩ := others.bounds member
    cases placed.symm.trans childKnown
    have inside : Inside firstSpan.start firstSpan.stop [c] := by
      refine List.forall_mem_singleton.mpr fun _ => ?_
      rw [place]
      constructor <;> dsimp only <;> omega
    exact inside.covering_eq_nil filled (.inl (Int.le_trans after covers.1))

theorem Yields.known {β : Type} {held : β → Prop} {result : Except ExtractError β}
    (yields : Yields s held result) :
    Yields s (fun found => held found ∧ result = .ok found) result := by
  cases result with
  | ok found =>
      exact ⟨yields, rfl⟩
  | error e =>
      exact yields.of_error

section Directive

variable {info : NodeInfo} {children : List Node} {child : Node} {lower upper : Int} {span : Span}

theorem surveyDirective_coveredOnce {body : List BlockItem → Prop}
    (spaced : Node.Spaced lower upper children) (each : ∀ node ∈ children, StaysInside s node)
    (member : child ∈ bodyOf children) (placed : child.span = some span)
    (covers : span.Covers range) (filled : range.start < range.stop)
    (items : Yields s body (surveyBlock s none (bodyOf children)).result)
    (found : ∀ items, body items → CoveredOnce range property
      (changesOfItems true (directiveNotes "content" info) items)) :
    Yields s (CoveredOnce range property) (surveyDirective s info children).result := by
  refine Yields.surveyDirective ?_ ?_ items ?_
  · intro node member
    obtain ⟨span, placed, -⟩ := spaced.bounds member
    simp [placed]
  · intro node member
    obtain ⟨span, placed, -⟩ := spaced.bounds member
    exact (each node member false span placed).2.imp fun _ _ => trivial
  · intro title items label given
    exact (found items given).append_left
      (label.covering_eq_nil spaced member placed covers filled)

/-- A silent child of a directive is covered by one change of the body. -/
theorem surveyDirective_silent_coveredOnce (spaced : Node.Spaced lower upper children)
    (each : ∀ node ∈ children, StaysInside s node) (member : child ∈ bodyOf children)
    (placed : child.span = some range) (silent : (survey s false child).result = .ok [])
    (noList : child.kind ≠ .list) (filled : range.start < range.stop) :
    Yields s (CoveredOnce range (IsBodyChange s info children))
      (surveyDirective s info children).result := by
  have body := surveyBlock_inOneStretch (stretchWithin_none lower) (spaced_bodyOf spaced)
    (fun node member => each node (mem_of_mem_bodyOf member)) member placed silent noList filled
  refine surveyDirective_coveredOnce spaced each member placed
    ⟨Int.le_refl _, Int.le_refl _⟩ filled body.known ?_
  rintro items ⟨⟨text, stretch, listed, only⟩, surveyed⟩
  exact ⟨_, only (directiveNotes "content" info), items, text, stretch, surveyed, listed, rfl⟩

end Directive

/-! ### Blocks that a survey reaches -/

/-- The survey of a node goes on to another one; the flags tell whether the nodes count as standing
at top level. -/
inductive Reaches : Bool → Node → Bool → Node → Prop where
  | here {top : Bool} {node : Node} : Reaches top node top node
  | flat {top flag : Bool} {info : NodeInfo} {children : List Node} {child target : Node}
      (kind : info.kind ∈ [NodeKind.list, .listItem, .table, .tableRow])
      (member : child ∈ children) (below : Reaches true child flag target) :
      Reaches top (.mk info children) flag target
  | accordion {top flag : Bool} {info : NodeInfo} {children : List Node} {child target : Node}
      (kind : info.kind = .jsxElement) (name : info.name = some (Text.ofString "AccordionItem"))
      (member : child ∈ children) (below : Reaches true child flag target) :
      Reaches top (.mk info children) flag target
  | directive {top flag : Bool} {info : NodeInfo} {children : List Node} {child target : Node}
      (kind : info.kind = .directive) (member : child ∈ bodyOf children)
      (below : Reaches false child flag target) : Reaches top (.mk info children) flag target

theorem survey_accordion {info : NodeInfo} {children : List Node} (top : Bool)
    (kind : info.kind = .jsxElement) (name : info.name = some (Text.ofString "AccordionItem"))
    (placed : info.span.isSome) :
    (survey s top (.mk info children)).result =
      (surveyAll s true children).result.map ((titleAttribute info).1 ++ ·) := by
  have present : info.span.isNone = false := by simpa using placed
  have other : Text.ofString "AccordionItem" ≠ Text.ofString "RelativeLink" := by decide
  simp [survey, kind, mayHoldContent, present, name, other]

theorem Reaches.inPlace {top flag : Bool} {node target : Node}
    (reaches : Reaches top node flag target) (inPlace : node.InPlace) : target.InPlace := by
  induction reaches with
  | here =>
      exact inPlace
  | flat _ member _ hypothesis =>
      obtain ⟨-, -, -, below⟩ := inPlace
      exact hypothesis (below _ member)
  | accordion _ _ member _ hypothesis =>
      obtain ⟨-, -, -, below⟩ := inPlace
      exact hypothesis (below _ member)
  | directive _ member _ hypothesis =>
      obtain ⟨-, -, -, below⟩ := inPlace
      exact hypothesis (below _ (mem_of_mem_bodyOf member))

theorem covers_of_child {children : List Node} {child : Node} {outer inner : Span}
    (spaced : Node.Spaced outer.start outer.stop children) (member : child ∈ children)
    (placed : child.span = some inner) (covers : inner.Covers range) : outer.Covers range := by
  obtain ⟨other, known, after, -, before⟩ := spaced.bounds member
  cases placed.symm.trans known
  exact ⟨Int.le_trans after covers.1, Int.le_trans covers.2 before⟩

/-- What covers a range once in the survey of a reached node does so in the survey of the whole. -/
theorem Reaches.coveredOnce {top flag : Bool} {node target : Node} {span : Span}
    (reaches : Reaches top node flag target) (inPlace : node.InPlace)
    (placed : target.span = some span) (covers : span.Covers range)
    (filled : range.start < range.stop)
    (once : Yields s (CoveredOnce range property) (survey s flag target).result) :
    ∃ outer, node.span = some outer ∧ outer.Covers range ∧
      Yields s (CoveredOnce range property) (survey s top node).result := by
  induction reaches with
  | here =>
      exact ⟨span, placed, covers, once⟩
  | flat kind member _ hypothesis =>
      obtain @⟨_, _, outer, outerPlaced, spaced, -, below⟩ := inPlace
      obtain ⟨inner, innerPlaced, innerCovers, found⟩ := hypothesis (below _ member) placed once
      refine ⟨outer, outerPlaced, covers_of_child spaced member innerPlaced innerCovers, ?_⟩
      rw [survey_flat kind (by simp [outerPlaced])]
      exact surveyAll_coveredOnce spaced
        (fun node member => staysInside_of_inPlace (below node member))
        member innerPlaced innerCovers filled found
  | @accordion _ _ info children _ _ kind name member _ hypothesis =>
      obtain @⟨_, _, outer, outerPlaced, spaced, attributes, below⟩ := inPlace
      obtain ⟨inner, innerPlaced, innerCovers, found⟩ := hypothesis (below _ member) placed once
      have outerCovers := covers_of_child spaced member innerPlaced innerCovers
      refine ⟨outer, outerPlaced, outerCovers, ?_⟩
      rw [survey_accordion _ kind name (by simp [outerPlaced])]
      have all := surveyAll_coveredOnce spaced
        (fun node member => staysInside_of_inPlace (below node member)) member innerPlaced
        innerCovers filled found
      refine all.map fun changes once => once.append_left ?_
      have title : Inside outer.start range.start (titleAttribute info).1 := by
        intro c titled _
        obtain ⟨a, listed, value⟩ := titleAttribute_span titled
        obtain ⟨after, before, front⟩ := attributes a listed c.span value
        obtain ⟨other, known, behind, -⟩ := (spaced.of_head before front).bounds member
        cases innerPlaced.symm.trans known
        exact ⟨after, Int.le_trans behind innerCovers.1⟩
      exact title.covering_eq_nil filled (.inl (Int.le_refl _))
  | @directive _ _ info children _ _ kind member _ hypothesis =>
      obtain @⟨_, _, outer, outerPlaced, spaced, -, below⟩ := inPlace
      have inBody := mem_of_mem_bodyOf member
      have each : ∀ node ∈ children, StaysInside s node :=
        fun node member => staysInside_of_inPlace (below node member)
      obtain ⟨inner, innerPlaced, innerCovers, found⟩ := hypothesis (below _ inBody) placed once
      refine ⟨outer, outerPlaced, covers_of_child spaced inBody innerPlaced innerCovers, ?_⟩
      rw [survey_directive kind (by simp [outerPlaced])]
      have body := surveyBlock_coveredOnce (stretchWithin_none outer.start) (spaced_bodyOf spaced)
        (fun node member => each node (mem_of_mem_bodyOf member)) member innerPlaced innerCovers
        filled found
      exact surveyDirective_coveredOnce spaced each member innerPlaced innerCovers filled body
        fun items once => once true _

/-! ### Documents -/

theorem surveyTopLevel_inside {lower upper : Int} {nodes : List Node}
    (spaced : Node.Spaced lower upper nodes) (each : ∀ node ∈ nodes, StaysInside s node) :
    Yields s (Inside lower upper) (surveyTopLevel s nodes).result := by
  induction nodes generalizing lower with
  | nil =>
      unfold surveyTopLevel
      exact inside_nil lower upper
  | cons first rest hypothesis =>
      obtain ⟨span, placed, after, proper, others⟩ := spaced
      obtain ⟨head, tail⟩ := List.forall_mem_cons.mp each
      have fromFirst := Int.le_trans after proper
      refine Yields.surveyTopLevel_cons (fun _ => (head true span placed).1)
        (hypothesis others tail) ?_ fun _ _ behind => behind.mono fromFirst (Int.le_refl _)
      intro changes later _ inside behind
      exact (inside.mono after others.le).append (behind.mono fromFirst (Int.le_refl _))

theorem surveyTopLevel_coveredOnce {lower upper : Int} {nodes : List Node} {node : Node}
    {span : Span} (spaced : Node.Spaced lower upper nodes)
    (each : ∀ node ∈ nodes, StaysInside s node) (member : node ∈ nodes)
    (kind : isTopLevelKind node.kind = true) (placed : node.span = some span)
    (covers : span.Covers range) (filled : range.start < range.stop)
    (once : Yields s (CoveredOnce range property) (survey s true node).result) :
    Yields s (CoveredOnce range property) (surveyTopLevel s nodes).result := by
  induction nodes generalizing lower with
  | nil =>
      cases member
  | cons first rest hypothesis =>
      obtain ⟨firstSpan, firstPlaced, -, -, others⟩ := spaced
      obtain ⟨head, tail⟩ := List.forall_mem_cons.mp each
      rcases List.mem_cons.mp member with rfl | inRest
      · cases placed.symm.trans firstPlaced
        refine Yields.surveyTopLevel_cons (fun _ => once) (surveyTopLevel_inside others tail) ?_ ?_
        · intro changes later _ found behind
          exact found.append_right (behind.covering_eq_nil filled (.inr covers.2))
        · intro _ skipped
          simp [kind] at skipped
      · obtain ⟨nodeSpan, known, after, -⟩ := others.bounds inRest
        cases placed.symm.trans known
        refine Yields.surveyTopLevel_cons (fun _ => (head true firstSpan firstPlaced).1)
          (hypothesis others tail inRest) ?_ fun _ _ found => found
        intro changes later _ before found
        exact found.append_left
          (before.covering_eq_nil filled (.inl (Int.le_trans after covers.1)))

/-- The survey of a document reaches a node. -/
def Reached (root : Node) (flag : Bool) (target : Node) : Prop :=
  ∃ node ∈ root.children, isTopLevelKind node.kind = true ∧ Reaches true node flag target

theorem Reached.inPlace {root target : Node} {flag : Bool} (reached : Reached root flag target)
    (inPlace : root.InPlace) : target.InPlace := by
  obtain ⟨node, member, -, reaches⟩ := reached
  obtain ⟨-, -, -, below⟩ := inPlace
  exact reaches.inPlace (below node member)

theorem Reached.coveredOnce {root target : Node} {flag : Bool} {span : Span}
    (reached : Reached root flag target) (inPlace : root.InPlace)
    (placed : target.span = some span) (covers : span.Covers range)
    (filled : range.start < range.stop)
    (once : Yields s (CoveredOnce range property) (survey s flag target).result) :
    Yields s (CoveredOnce range property) (surveyDocument s root).result := by
  obtain ⟨node, member, kind, reaches⟩ := reached
  obtain ⟨-, spaced, -, below⟩ := inPlace
  obtain ⟨outer, outerPlaced, outerCovers, found⟩ :=
    reaches.coveredOnce (below node member) placed covers filled once
  exact surveyTopLevel_coveredOnce spaced
    (fun node member => staysInside_of_inPlace (below node member))
    member kind outerPlaced outerCovers filled found

/-- Nothing is lost and nothing is given twice. Unless the address of a link cannot be localised,
the survey of a document gives, for each block of inline nodes that it reaches at top level, exactly
one change that covers the content of the block, and this change has the content for its span; and
for each child of a directive that yields nothing of its own and is no list, exactly one change that
covers the child, which is a content change of the directive. -/
theorem surveyDocument_coveredOnce {root : Node} (inPlace : root.InPlace) :
    Yields s (fun changes =>
      (∀ block, Reached root true block →
        block.kind ∈ [NodeKind.heading, .paragraph, .tableCell] →
        (∀ child ∈ block.children, child.kind ∈ [NodeKind.text, .link, .image, .inlineCode]) →
        ∀ range, contentSpan block.children = some range → range.start < range.stop →
          CoveredOnce range (fun c => c.kind = .content ∧ c.span = range) changes) ∧
      (∀ flag directive, Reached root flag directive → directive.kind = .directive →
        ∀ child ∈ bodyOf directive.children, child.kind ≠ .list →
        (survey s false child).result = .ok [] →
        ∀ range, child.span = some range → range.start < range.stop →
          CoveredOnce range (IsBodyChange s directive.info directive.children) changes))
      (surveyDocument s root).result := by
  have total : Yields s (fun _ => True) (surveyDocument s root).result := by
    obtain ⟨-, spaced, -, below⟩ := inPlace
    have stays := surveyTopLevel_inside (s := s) spaced
      fun node member => staysInside_of_inPlace (below node member)
    exact stays.imp fun _ _ => trivial
  cases outcome : (surveyDocument s root).result with
  | error e =>
      rw [outcome] at total
      exact total.of_error
  | ok changes =>
      constructor
      · rintro ⟨info, children⟩ reached kind inline range content filled
        obtain @⟨_, _, span, placed, spaced, -, -⟩ := reached.inPlace inPlace
        have present : info.span.isSome := by simp [placed]
        have once := survey_block_coveredOnce (s := s) kind present spaced inline content filled
        have found := reached.coveredOnce inPlace placed (contentSpan_within spaced content) filled
          once
        rwa [outcome] at found
      · rintro flag ⟨info, children⟩ reached kind child member noList silent range childPlaced
          filled
        obtain @⟨_, _, span, placed, spaced, -, below⟩ := reached.inPlace inPlace
        have present : info.span.isSome := by simp [placed]
        change info.kind = .directive at kind
        have once : Yields s (CoveredOnce range (IsBodyChange s info children))
            (survey s flag (.mk info children)).result := by
          rw [survey_directive kind present]
          exact surveyDirective_silent_coveredOnce spaced
            (fun node member => staysInside_of_inPlace (below node member)) member childPlaced
            silent noList filled
        have covers := covers_of_child spaced (mem_of_mem_bodyOf member) childPlaced
          ⟨Int.le_refl _, Int.le_refl _⟩
        have found := reached.coveredOnce inPlace placed covers filled once
        rwa [outcome] at found

/-- A directive with a label, a code block, another directive, and a list with a paragraph. -/
theorem surveyDocument_coveredOnce_nested :
    let s : Settings :=
      ⟨Text.ofString "[ab]```c:::defgh- ij", Text.ofString "en", Text.ofString "locale"⟩
    let block (kind : NodeKind) (start stop : Int) (children : List Node) : Node :=
      .mk { kind, span := some ⟨start, stop⟩ } children
    let flagged : List (Text × Json) := [(Text.ofString "directiveLabel", .bool true)]
    let label : Node :=
      .mk { kind := .paragraph, span := some ⟨0, 4⟩, data := flagged } [block .text 1 3 []]
    let inner := block .directive 8 15 [block .paragraph 11 15 [block .text 11 15 []]]
    let last := block .paragraph 18 20 [block .text 18 20 []]
    let list := block .list 16 20 [block .listItem 16 20 [last]]
    let root := block .root 0 20 [block .directive 0 20 [label, block .code 4 8 [], inner, list]]
    root.InPlace ∧ ∃ changes, (surveyDocument s root).result = .ok changes ∧
      CoveredOnce ⟨18, 20⟩ (fun c => c.kind = .content ∧ c.span = ⟨18, 20⟩) changes ∧
      CoveredOnce ⟨11, 15⟩ (IsBodyChange s inner.info inner.children) changes := by
  intro s block flagged label inner last list root
  have blockInPlace {kind : NodeKind} {start stop : Int} {children : List Node}
      (spaced : Node.Spaced start stop children) (below : ∀ child ∈ children, child.InPlace) :
      (block kind start stop children).InPlace :=
    .mk rfl spaced (by simp) below
  have leaf {kind : NodeKind} {start stop : Int} (proper : start ≤ stop) :
      (block kind start stop []).InPlace :=
    blockInPlace proper (by simp)
  have single {kind : NodeKind} {start stop : Int} {child : Node} {span : Span}
      (placed : child.span = some span) (covers : (⟨start, stop⟩ : Span).Covers span)
      (proper : span.start ≤ span.stop) (inPlace : child.InPlace) :
      (block kind start stop [child]).InPlace :=
    blockInPlace ⟨span, placed, covers.1, proper, covers.2⟩ (by simpa using inPlace)
  have labelInPlace : label.InPlace :=
    .mk rfl ⟨_, rfl, by decide, by decide, Node.spaced_nil (by decide)⟩ (by simp)
      (by simpa using leaf (by decide))
  have innerInPlace : inner.InPlace :=
    single rfl (by decide) (by decide) (single rfl (by decide) (by decide) (leaf (by decide)))
  have listInPlace : list.InPlace :=
    single rfl (by decide) (by decide) (single rfl (by decide) (by decide)
      (single rfl (by decide) (by decide) (leaf (by decide))))
  have inPlace : root.InPlace := by
    refine single rfl (by decide) (by decide) (blockInPlace ?_ ?_)
    · exact ⟨_, rfl, by decide, by decide, _, rfl, by decide, by decide, _, rfl, by decide,
        by decide, _, rfl, by decide, by decide, Node.spaced_nil (by decide)⟩
    · simp only [List.forall_mem_cons]
      exact ⟨labelInPlace, leaf (by decide), innerInPlace, listInPlace, fun _ none => nomatch none⟩
  have surveyed : ((surveyDocument s root).result.toOption.isSome) = true := by
    cbv
  have found := surveyDocument_coveredOnce (s := s) inPlace
  cases outcome : (surveyDocument s root).result with
  | error e =>
      rw [outcome] at surveyed
      cases surveyed
  | ok changes =>
      rw [outcome] at found
      have body : bodyOf [label, block .code 4 8 [], inner, list] =
          [block .code 4 8 [], inner, list] := by
        have isLabel : label.info.flag "directiveLabel" = true := by decide
        rw [bodyOf, if_pos isLabel]
      have reached {flag : Bool} {child target : Node} (member : child ∈ [inner, list])
          (below : Reaches false child flag target) : Reached root flag target := by
        refine ⟨_, List.mem_singleton_self _, rfl, .directive rfl ?_ below⟩
        rw [body]
        exact List.mem_cons_of_mem _ member
      have leaves {start stop : Int} : ∀ child ∈ [block .text start stop []],
          child.kind ∈ [NodeKind.text, .link, .image, .inlineCode] :=
        List.forall_mem_singleton.mpr List.mem_cons_self
      have lastBelow : Reaches false list true last :=
        .flat (by simp) List.mem_cons_self (.flat (by simp) List.mem_cons_self .here)
      have lastReached : Reached root true last :=
        reached (List.mem_cons_of_mem inner List.mem_cons_self) lastBelow
      have innerReached : Reached root false inner := reached List.mem_cons_self .here
      refine ⟨inPlace, changes, rfl, ?_, ?_⟩
      · exact found.1 last lastReached (by decide) leaves _ rfl (by decide)
      · exact found.2 false inner innerReached rfl _ List.mem_cons_self (by decide) (by cbv) _ rfl
          (by decide)

end Extract

end MdxLocalization
