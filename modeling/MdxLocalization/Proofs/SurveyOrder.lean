import Mathlib
import MdxLocalization.Extract.Body
import MdxLocalization.Proofs.Placement
import MdxLocalization.Proofs.Validation

/-!
# The survey of a document goes from front to back

In a well-positioned tree the survey yields changes in document order that do not touch one another,
each within the span of the node it comes from. This holds of every kind of node at once: a block
cuts its text around the changes of its children, so the stretches between them and the changes of
the children take turns.

A survey fails only when the address of a link cannot be localised.
-/

namespace MdxLocalization.Extract

variable {s : Settings}

/-! ### What a survey yields -/

/-- A survey gives something with a property, or an address cannot be localised. -/
def Yields {β : Type} (s : Settings) (property : β → Prop) : Except ExtractError β → Prop
  | .ok found => property found
  | .error (.url e) => ∃ url, Url.localize s.locale s.placeholder url = .error e
  | .error (.missingPosition _) => False

theorem Yields.map {β γ : Type} {property : β → Prop} {other : γ → Prop} {f : β → γ}
    {result : Except ExtractError β} (yields : Yields s property result)
    (carried : ∀ found, property found → other (f found)) : Yields s other (result.map f) := by
  cases result with
  | ok found =>
      exact carried found yields
  | error e =>
      cases e with
      | url e => exact yields
      | missingPosition e => exact yields

theorem Yields.imp {β : Type} {property other : β → Prop} {result : Except ExtractError β}
    (yields : Yields s property result) (weaker : ∀ found, property found → other found) :
    Yields s other result := by
  cases result with
  | ok found =>
      exact weaker found yields
  | error e =>
      cases e with
      | url e => exact yields
      | missingPosition e => exact yields

theorem Yields.of_error {β γ : Type} {property : β → Prop} {other : γ → Prop} {e : ExtractError}
    (yields : Yields s property (.error e : Except ExtractError β)) :
    Yields s other (.error e : Except ExtractError γ) := by
  cases e with
  | url e => exact yields
  | missingPosition e => exact yields

theorem survey_after_span (top : Bool) (node : Node) :
    (survey s top node).after.span = node.span := by
  obtain ⟨info, children⟩ := node
  rw [survey.eq_def]
  dsimp only
  repeat' (first | rfl | split)

/-! ### Nodes of each kind -/

section Kinds

variable {info : NodeInfo} {children : List Node} {top : Bool}

attribute [local simp] survey mayHoldContent

theorem survey_flat (kind : info.kind ∈ [NodeKind.list, .listItem, .table, .tableRow])
    (placed : info.span.isSome) :
    (survey s top (.mk info children)).result = (surveyAll s true children).result := by
  have present : info.span.isNone = false := by simpa using placed
  simp only [List.mem_cons, List.not_mem_nil, or_false] at kind
  rcases kind with kind | kind | kind | kind <;> simp [kind, present]

theorem survey_block (kind : info.kind ∈ [NodeKind.heading, .paragraph, .tableCell])
    (placed : info.span.isSome) :
    (survey s top (.mk info children)).result =
      (surveyBlock s none children).result.map (changesOfItems top []) := by
  have present : info.span.isNone = false := by simpa using placed
  simp only [List.mem_cons, List.not_mem_nil, or_false] at kind
  rcases kind with kind | kind | kind <;> simp [kind, present]

theorem survey_directive (kind : info.kind = .directive) (placed : info.span.isSome) :
    (survey s top (.mk info children)).result = (surveyDirective s info children).result := by
  have present : info.span.isNone = false := by simpa using placed
  simp [kind, present]

theorem survey_element (s : Settings) (top : Bool) (kind : info.kind = .jsxElement)
    (placed : info.span.isSome) :
    (survey s top (.mk info children)).result = .ok [] ∨
      (survey s top (.mk info children)).result = .ok (titleAttribute info).1 ∨
      (survey s top (.mk info children)).result =
        (surveyAll s true children).result.map ((titleAttribute info).1 ++ ·) := by
  have present : info.span.isNone = false := by simpa using placed
  by_cases relative : info.name = some (Text.ofString "RelativeLink")
  · exact .inr (.inl (by simp [kind, present, relative]))
  · by_cases accordion : info.name = some (Text.ofString "AccordionItem")
    · refine .inr (.inr ?_)
      have other : Text.ofString "AccordionItem" ≠ Text.ofString "RelativeLink" := by decide
      simp [kind, present, accordion, other]
    · exact .inl (by simp [kind, present, relative, accordion])

/-- A link yields nothing, or its address cannot be localised. -/
theorem survey_link (s : Settings) (top : Bool) (kind : info.kind = .link)
    (placed : info.span.isSome) :
    (survey s top (.mk info children)).result = .ok [] ∨
      ∃ url e, Url.localize s.locale s.placeholder url = .error e ∧
        (survey s top (.mk info children)).result = .error (.url e) := by
  have present : info.span.isNone = false := by simpa using placed
  cases address : info.url with
  | none =>
      exact .inl (by simp [kind, present, address])
  | some url =>
      cases localized : Url.localize s.locale s.placeholder url with
      | ok localUrl =>
          exact .inl (by simp [kind, present, address, localized])
      | error e =>
          refine .inr ⟨url, e, localized, ?_⟩
          simp [kind, present, address, localized]

theorem survey_other
    (kind : info.kind ∉ [NodeKind.list, .listItem, .table, .tableRow, .heading, .paragraph,
      .tableCell, .directive, .jsxElement, .link])
    (placed : info.span.isSome) : (survey s top (.mk info children)).result = .ok [] := by
  have present : info.span.isNone = false := by simpa using placed
  simp only [List.mem_cons, List.not_mem_nil, or_false, not_or] at kind
  by_cases image : info.kind = .image
  · simp [image, present]
  · have holdsNothing : mayHoldContent info.kind = false := by
      revert kind image
      cases info.kind <;> simp
    simp [holdsNothing, -mayHoldContent]

end Kinds

/-! ### Items of a block -/

/-- The stretch that is being collected lies between two positions. -/
def StretchWithin (lower cursor : Int) : Option Stretch → Prop
  | none => lower ≤ cursor
  | some stretch =>
    lower ≤ stretch.span.start ∧ stretch.span.start ≤ stretch.span.stop ∧
      stretch.span.stop ≤ cursor

/-- The changes that come of the items of a block lie between two positions, whether or not its
stretches become changes. -/
def ItemsWithin (lower upper : Int) (items : List BlockItem) : Prop :=
  ∀ withStretches notes, Patch.Within lower upper (changesOfItems withStretches notes items)

theorem stretchWithin_none (lower : Int) : StretchWithin lower lower none :=
  Int.le_refl lower

theorem StretchWithin.le {lower cursor : Int} {current : Option Stretch}
    (within : StretchWithin lower cursor current) : lower ≤ cursor := by
  cases current with
  | none =>
      exact within
  | some stretch =>
      obtain ⟨after, proper, before⟩ := within
      omega

theorem StretchWithin.extend {lower cursor : Int} {current : Option Stretch}
    (within : StretchWithin lower cursor current) (text : Text) {span : Span}
    (after : cursor ≤ span.start) (proper : span.start ≤ span.stop) :
    StretchWithin lower span.stop (some (extend current text span)) := by
  cases current with
  | none =>
      exact ⟨Int.le_trans within after, proper, Int.le_refl _⟩
  | some stretch =>
      obtain ⟨lowerLe, inOrder, before⟩ := within
      refine ⟨lowerLe, ?_, Int.le_refl _⟩
      change stretch.span.start ≤ span.stop
      omega

theorem itemsWithin_finish {lower cursor : Int} {current : Option Stretch}
    (within : StretchWithin lower cursor current) : ItemsWithin lower cursor (finish current) := by
  intro withStretches notes
  cases current with
  | none =>
      exact Patch.within_nil lower cursor
  | some stretch =>
      obtain ⟨after, proper, before⟩ := within
      simp only [finish, changesOfItems, List.flatMap_cons, List.flatMap_nil, List.append_nil]
      split
      · rename_i counts
        simp only [Bool.and_eq_true, decide_eq_true_eq] at counts
        exact Patch.within_single after counts.2 before
      · exact Patch.within_nil lower cursor

theorem itemsWithin_changes {lower upper : Int} {changes : List Change}
    (within : Patch.Within lower upper changes) :
    ItemsWithin lower upper (changes.map .change) := by
  intro withStretches notes
  have same : changesOfItems withStretches notes (changes.map .change) = changes := by
    unfold changesOfItems
    rw [List.flatMap_map]
    simp
  rw [same]
  exact within

theorem ItemsWithin.append {lower middle upper : Int} {items others : List BlockItem}
    (first : ItemsWithin lower middle items) (second : ItemsWithin middle upper others)
    (lowerLe : lower ≤ middle) (leUpper : middle ≤ upper) :
    ItemsWithin lower upper (items ++ others) := by
  intro withStretches notes
  unfold changesOfItems
  rw [List.flatMap_append]
  exact (first withStretches notes).append (second withStretches notes) lowerLe leUpper

/-! ### Lists of nodes -/

/-- Surveying a node yields changes within its span, and so does surveying its children one by one;
the latter happens to the children of a label. -/
def StaysWithin (s : Settings) (node : Node) : Prop :=
  ∀ top span, node.span = some span →
    Yields s (Patch.Within span.start span.stop) (survey s top node).result ∧
      Yields s (Patch.Within span.start span.stop) (surveyAll s top node.children).result

/-- Surveying nodes that follow one another yields changes that do. -/
theorem surveyAll_yields {top : Bool} {lower upper : Int} {children : List Node}
    (spaced : Node.Spaced lower upper children) (each : ∀ child ∈ children, StaysWithin s child) :
    Yields s (Patch.Within lower upper) (surveyAll s top children).result := by
  induction children generalizing lower with
  | nil =>
      unfold surveyAll
      exact Patch.within_nil lower upper
  | cons child rest hypothesis =>
      obtain ⟨span, placed, after, proper, others⟩ := spaced
      have first := (each child List.mem_cons_self top span placed).1
      have later := hypothesis others
        fun node member => each node (List.mem_cons_of_mem child member)
      unfold surveyAll
      cases outcome : (survey s top child).result with
      | error e =>
          rw [outcome] at first
          simp only [outcome]
          exact first.of_error
      | ok changes =>
          rw [outcome] at first
          simp only [outcome]
          apply later.map
          intro rest within
          exact (first.mono after (Int.le_refl _)).append within
            (Int.le_trans after proper) others.le

/-- Surveying the children of a block yields items that follow one another, after the stretch that
is being collected. -/
theorem surveyBlock_yields {lower cursor upper : Int} {current : Option Stretch}
    {children : List Node} (within : StretchWithin lower cursor current)
    (spaced : Node.Spaced cursor upper children)
    (each : ∀ child ∈ children, StaysWithin s child) :
    Yields s (ItemsWithin lower upper) (surveyBlock s current children).result := by
  induction children generalizing lower cursor current with
  | nil =>
      unfold surveyBlock
      intro withStretches notes
      exact (itemsWithin_finish within withStretches notes).mono (Int.le_refl _) spaced
  | cons child rest hypothesis =>
      obtain ⟨span, placed, after, proper, others⟩ := spaced
      have first := (each child List.mem_cons_self false span placed).1
      have restEach : ∀ node ∈ rest, StaysWithin s node :=
        fun node member => each node (List.mem_cons_of_mem child member)
      have found : (survey s false child).after.info.spanOrFail = .ok span := by
        have same : (survey s false child).after.info.span = some span :=
          (survey_after_span false child).trans placed
        simp [NodeInfo.spanOrFail, same]
      unfold surveyBlock
      cases outcome : (survey s false child).result with
      | error e =>
          rw [outcome] at first
          simp only [outcome]
          exact first.of_error
      | ok changes =>
          rw [outcome] at first
          simp only [outcome]
          split_ifs with apart
          · -- The stretch so far ends, the changes follow, and a new stretch may begin.
            have later := hypothesis (stretchWithin_none span.stop) others restEach
            apply later.map
            intro items itemsWithin
            have upToChild := (itemsWithin_finish within).append
              (itemsWithin_changes (first.mono after (Int.le_refl _))) within.le
              (Int.le_trans after proper)
            have lowerLe := within.le
            exact upToChild.append itemsWithin (by omega) others.le
          · simp only [found]
            exact hypothesis (within.extend _ after proper) others restEach

/-! ### Directives -/

/-- Surveying a directive yields the change for the label, which leaves out the brackets, and then
the changes of the body. -/
theorem surveyDirective_yields {info : NodeInfo} {lower upper : Int} {children : List Node}
    (spaced : Node.Spaced lower upper children)
    (labels : ∀ child ∈ children, child.LabelFilled)
    (each : ∀ child ∈ children, StaysWithin s child) :
    Yields s (Patch.Within lower upper) (surveyDirective s info children).result := by
  cases children with
  | nil =>
      unfold surveyDirective
      exact Patch.within_nil lower upper
  | cons first rest =>
      obtain ⟨label, inner⟩ := first
      unfold surveyDirective
      split_ifs with labelled
      · obtain ⟨span, placed, after, proper, others⟩ := spaced
        have known : label.span = some span := placed
        have filled := labels _ List.mem_cons_self labelled span placed
        have inside := (each _ List.mem_cons_self false span placed).2
        have body := surveyBlock_yields (stretchWithin_none span.stop) others
          fun node member => each node (List.mem_cons_of_mem _ member)
        simp only [NodeInfo.spanOrFail, known]
        change Yields s _ (surveyAll s false inner).result at inside
        cases outcome : (surveyAll s false inner).result with
        | error e =>
            rw [outcome] at inside
            exact inside.of_error
        | ok changes =>
            apply body.map
            intro items within
            have longEnough : 3 ≤ span.stop - span.start := filled
            have titled : Patch.Within lower span.stop
                [labelChange s.source info span (surveyAll s false inner).after] := by
              refine Patch.within_single ?_ ?_ ?_ <;> simp only [labelChange] <;> omega
            exact titled.append (within true (directiveNotes "content" info))
              (Int.le_trans after proper) others.le
      · have body := surveyBlock_yields (stretchWithin_none lower) spaced each
        apply body.map
        intro items within
        exact within true (directiveNotes "content" info)

/-! ### Whole trees -/

/-- The change for a title stands in the span of its element, before the children. -/
theorem titleAttribute_within {info : NodeInfo} {span : Span} {children : List Node}
    (spaced : Node.Spaced span.start span.stop children)
    (attributes : info.AttributesPlaced span children) :
    ∃ middle, Patch.Within span.start middle (titleAttribute info).1 ∧
      span.start ≤ middle ∧ Node.Spaced middle span.stop children := by
  have nothing : Patch.Within span.start span.start [] := Patch.within_nil _ _
  unfold titleAttribute
  dsimp only
  cases found : info.attributeNamed? (Text.ofString "title") with
  | none =>
      exact ⟨span.start, nothing, Int.le_refl _, spaced⟩
  | some a =>
      cases literal : a.valueSpan with
      | none =>
          simp only [literal]
          exact ⟨span.start, nothing, Int.le_refl _, spaced⟩
      | some value =>
          simp only [literal]
          split_ifs with blank
          · exact ⟨span.start, nothing, Int.le_refl _, spaced⟩
          · have listed : a ∈ info.attributes := List.mem_of_find?_eq_some found
            obtain ⟨after, before, front, filled⟩ := attributes a listed value literal
            have proper := filled (by simpa using blank)
            refine ⟨value.stop, Patch.within_single after proper (Int.le_refl _), ?_,
              spaced.of_head before front⟩
            omega

/-- In a well-positioned tree every survey of a node stays within the span of the node. -/
theorem staysWithin_of_wellPositioned {length : Nat} {node : Node}
    (positioned : node.WellPositioned length) : StaysWithin s node := by
  induction positioned with
  | @mk info children span placed proper spaced attributes labels below hypothesis =>
      intro top other known
      have same : other = span := Option.some.inj (known.symm.trans placed)
      subst same
      have present : info.span.isSome := by simp [placed]
      have empty : Yields s (Patch.Within other.start other.stop) (.ok []) :=
        Patch.within_nil _ _
      refine ⟨?_, surveyAll_yields spaced hypothesis⟩
      by_cases flat : info.kind ∈ [NodeKind.list, .listItem, .table, .tableRow]
      · rw [survey_flat flat present]
        exact surveyAll_yields spaced hypothesis
      by_cases block : info.kind ∈ [NodeKind.heading, .paragraph, .tableCell]
      · rw [survey_block block present]
        apply (surveyBlock_yields (stretchWithin_none other.start) spaced hypothesis).map
        intro items within
        exact within top []
      by_cases directive : info.kind = .directive
      · rw [survey_directive directive present]
        exact surveyDirective_yields spaced labels hypothesis
      by_cases element : info.kind = .jsxElement
      · obtain ⟨middle, titled, lowerLe, children⟩ := titleAttribute_within spaced attributes
        obtain nothing | title | all := survey_element s top element present
        · rw [nothing]
          exact empty
        · rw [title]
          exact titled.mono (Int.le_refl _) children.le
        · rw [all]
          apply (surveyAll_yields children hypothesis).map
          intro changes within
          exact titled.append within lowerLe children.le
      by_cases link : info.kind = .link
      · obtain nothing | ⟨url, e, failed, result⟩ := survey_link s top link present
        · rw [nothing]
          exact empty
        · rw [result]
          exact ⟨url, failed⟩
      · rw [survey_other _ present]
        · exact empty
        · simp only [List.mem_cons, List.not_mem_nil, or_false, not_or] at flat block ⊢
          simp [flat, block, directive, element, link]

/-! ### Documents -/

/-- What a top-level node contributes: the changes of its survey, or nothing when its kind is not
surveyed. They stand within its span. -/
def Contributes (s : Settings) (node : Node) (changes : List Change) : Prop :=
  (if isTopLevelKind node.kind then (survey s true node).result = .ok changes else changes = []) ∧
    ∃ span, node.span = some span ∧ Patch.Within span.start span.stop changes

/-- Surveying the top-level nodes yields the contributions of each, one after the other. -/
theorem surveyTopLevel_yields {lower upper : Int} {nodes : List Node}
    (spaced : Node.Spaced lower upper nodes) (each : ∀ node ∈ nodes, StaysWithin s node) :
    Yields s (fun changes => Patch.Within lower upper changes ∧
        ∃ pieces, List.Forall₂ (Contributes s) nodes pieces ∧ changes = pieces.flatten)
      (surveyTopLevel s nodes).result := by
  induction nodes generalizing lower with
  | nil =>
      exact ⟨Patch.within_nil lower upper, [], .nil, rfl⟩
  | cons node rest hypothesis =>
      obtain ⟨span, placed, after, proper, others⟩ := spaced
      have first := (each node List.mem_cons_self true span placed).1
      have later := hypothesis others
        fun other member => each other (List.mem_cons_of_mem node member)
      unfold surveyTopLevel
      split_ifs with surveyed
      · cases outcome : (survey s true node).result with
        | error e =>
            rw [outcome] at first
            simp only [outcome]
            exact first.of_error
        | ok changes =>
            rw [outcome] at first
            simp only [outcome]
            apply later.map
            rintro found ⟨within, pieces, contributed, rfl⟩
            have piece : Contributes s node changes :=
              ⟨by rw [if_pos surveyed, outcome], span, placed, first⟩
            refine ⟨?_, changes :: pieces, .cons piece contributed, rfl⟩
            exact (first.mono after (Int.le_refl _)).append within
              (Int.le_trans after proper) others.le
      · have piece : Contributes s node [] :=
          ⟨by rw [if_neg surveyed], span, placed, Patch.within_nil _ _⟩
        apply later.imp
        rintro found ⟨within, pieces, contributed, rfl⟩
        exact ⟨within.mono (Int.le_trans after proper) (Int.le_refl _), [] :: pieces,
          .cons piece contributed, rfl⟩

/-- The survey of a well-positioned document gives changes in document order, unless the settings
cannot localise addresses. Each change fits the source, ends before the next one starts, and stands
within the top-level node it comes from, so that the list passes the check of patches. -/
theorem surveyDocument_inOrder {root : Node}
    (positioned : root.WellPositioned s.source.length)
    (localizes : ∀ url e, Url.localize s.locale s.placeholder url ≠ .error e) :
    ∃ changes, (surveyDocument s root).result = .ok changes ∧
      (∀ c ∈ changes, c.span.Fits s.source.length) ∧ Patch.InOrder changes ∧
      (∃ pieces, List.Forall₂ (Contributes s) root.children pieces ∧ changes = pieces.flatten) ∧
      Patch.validate changes s.source = .ok () := by
  obtain @⟨info, children, span, placed, proper, spaced, attributes, labels, below⟩ := positioned
  have yields := surveyTopLevel_yields spaced
    fun node member => staysWithin_of_wellPositioned (s := s) (below node member)
  unfold surveyDocument
  simp only [Node.children]
  cases outcome : (surveyTopLevel s children).result with
  | error e =>
      rw [outcome] at yields
      cases e with
      | url e =>
          obtain ⟨url, failed⟩ := yields
          exact absurd failed (localizes url e)
      | missingPosition e =>
          exact yields.elim
  | ok changes =>
      rw [outcome] at yields
      obtain ⟨⟨inOrder, bounds⟩, contributed⟩ := yields
      have fits : ∀ c ∈ changes, c.span.Fits s.source.length := by
        intro c member
        have inside := bounds c member
        refine ⟨?_, ?_, ?_⟩ <;> omega
      have sorted := inOrder.ascending_eq fun c member => (bounds c member).2.1
      refine ⟨changes, rfl, fits, inOrder, contributed, ?_⟩
      exact Patch.validate_ok_iff.mpr ⟨fits, by rw [sorted]; exact inOrder⟩

/-- A paragraph, and a directive with a label, a list and another paragraph. -/
theorem surveyDocument_inOrder_labelled :
    let s : Settings :=
      ⟨Text.ofString "abc\n[de] - f\ngh", Text.ofString "en", Text.ofString "locale"⟩
    let leaf (start stop : Int) : Node := .mk { kind := .text, span := some ⟨start, stop⟩ } []
    let block (kind : NodeKind) (start stop : Int) (children : List Node) : Node :=
      .mk { kind, span := some ⟨start, stop⟩ } children
    let label : Node :=
      .mk { kind := .paragraph, span := some ⟨4, 8⟩, data := [(Text.ofString "directiveLabel",
        .bool true)] } [leaf 5 7]
    let list := block .list 9 12 [block .listItem 9 12 [block .paragraph 11 12 [leaf 11 12]]]
    let root := block .root 0 15 [block .paragraph 0 3 [leaf 0 3],
      block .directive 4 15 [label, list, block .paragraph 13 15 [leaf 13 15]]]
    root.WellPositioned s.source.length ∧
      ∃ changes, (surveyDocument s root).result = .ok changes ∧
        changes.map Change.span = [⟨0, 3⟩, ⟨5, 7⟩, ⟨11, 12⟩, ⟨13, 15⟩] ∧
        Patch.validate changes s.source = .ok () := by
  intro s leaf block label list root
  have leafPositioned (start stop : Int) (proper : 0 ≤ start ∧ start ≤ stop ∧ stop ≤ 15) :
      (leaf start stop).WellPositioned 15 :=
    Node.wellPositioned_leaf rfl proper rfl
  have blockPositioned (kind : NodeKind) (start stop : Int) (children : List Node)
      (proper : 0 ≤ start ∧ start ≤ stop ∧ stop ≤ 15) (spaced : Node.Spaced start stop children)
      (labels : ∀ child ∈ children, child.LabelFilled)
      (below : ∀ child ∈ children, child.WellPositioned 15) :
      (block kind start stop children).WellPositioned 15 :=
    .mk rfl proper spaced (by simp [NodeInfo.AttributesPlaced]) labels below
  have unlabelled (kind : NodeKind) (start stop : Int) (children : List Node) :
      (block kind start stop children).LabelFilled := by
    intro flagged
    simp [block, Node.info, NodeInfo.flag, NodeInfo.dataField?, Json.fieldOf?] at flagged
  have labelFilled : label.LabelFilled := by
    rintro - span ⟨⟩
    decide
  have labelPositioned : label.WellPositioned 15 := by
    refine .mk rfl (by decide) ⟨_, rfl, by decide, by decide, Node.spaced_nil (by decide)⟩
      (by simp [NodeInfo.AttributesPlaced]) ?_ ?_
    · exact List.forall_mem_singleton.mpr (unlabelled .text 5 7 [])
    · exact List.forall_mem_singleton.mpr (leafPositioned 5 7 (by decide))
  have paragraphPositioned (start stop : Int)
      (proper : 0 ≤ start ∧ start ≤ stop ∧ stop ≤ 15) :
      (block .paragraph start stop [leaf start stop]).WellPositioned 15 := by
    refine blockPositioned _ _ _ _ proper
      ⟨_, rfl, Int.le_refl _, proper.2.1, Int.le_refl _⟩ ?_ ?_
    · exact List.forall_mem_singleton.mpr (unlabelled .text start stop [])
    · exact List.forall_mem_singleton.mpr (leafPositioned start stop proper)
  have listPositioned : list.WellPositioned 15 := by
    refine blockPositioned _ _ _ _ (by decide)
      ⟨_, rfl, by decide, by decide, Node.spaced_nil (by decide)⟩ ?_ ?_
    · exact List.forall_mem_singleton.mpr (unlabelled _ _ _ _)
    · refine List.forall_mem_singleton.mpr (blockPositioned _ _ _ _ (by decide)
        ⟨_, rfl, by decide, by decide, Node.spaced_nil (by decide)⟩ ?_ ?_)
      · exact List.forall_mem_singleton.mpr (unlabelled _ _ _ _)
      · exact List.forall_mem_singleton.mpr (paragraphPositioned 11 12 (by decide))
  have directivePositioned :
      (block .directive 4 15 [label, list, block .paragraph 13 15 [leaf 13 15]]).WellPositioned
        15 := by
    refine blockPositioned _ _ _ _ (by decide) ⟨_, rfl, by decide, by decide, _, rfl, by decide,
      by decide, _, rfl, by decide, by decide, Node.spaced_nil (by decide)⟩ ?_ ?_
    · simp only [List.forall_mem_cons]
      exact ⟨labelFilled, unlabelled _ _ _ _, unlabelled _ _ _ _, fun _ none => nomatch none⟩
    · simp only [List.forall_mem_cons]
      exact ⟨labelPositioned, listPositioned, paragraphPositioned 13 15 (by decide),
        fun _ none => nomatch none⟩
  have positioned : root.WellPositioned s.source.length := by
    refine blockPositioned _ _ _ _ (by decide) ⟨_, rfl, by decide, by decide, _, rfl, by decide,
      by decide, Node.spaced_nil (by decide)⟩ ?_ ?_
    · simp only [List.forall_mem_cons]
      exact ⟨unlabelled _ _ _ _, unlabelled _ _ _ _, fun _ none => nomatch none⟩
    · simp only [List.forall_mem_cons]
      exact ⟨paragraphPositioned 0 3 (by decide), directivePositioned, fun _ none => nomatch none⟩
  have localizes : ∀ url e, Url.localize s.locale s.placeholder url ≠ .error e := by
    intro url e
    have code : LanguageTag.languageCode s.locale = .ok (Text.ofString "en") := by
      decide +kernel
    have template : Template.read ('/' :: Url.placeholder s.placeholder) =
        .ok ((Text.ofString "/%%locale%%").map .char) := by
      decide +kernel
    simp [Url.localize, code, template, Except.mapError, bind, Except.bind, pure, Except.pure]
  have spans : (surveyDocument s root).result.toOption.map (·.map Change.span) =
      some [⟨0, 3⟩, ⟨5, 7⟩, ⟨11, 12⟩, ⟨13, 15⟩] := by
    cbv
  obtain ⟨changes, found, fits, inOrder, contributed, checked⟩ :=
    surveyDocument_inOrder positioned localizes
  rw [found] at spans
  exact ⟨positioned, changes, found, Option.some.inj spans, checked⟩

end MdxLocalization.Extract
