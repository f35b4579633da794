import MdxLocalization.Proofs.SurveyOrder

/-!
# The survey of a node stays inside the node

Surveying a list of nodes, the children of a block or those of a directive proceeds child by child;
one rule for each says what has to be known of the first child and of the rest. From these rules it
follows that no change of a node leaves the span of the node. Empty changes are left out of this, so
that nothing has to be asked of the labels of directives: one that is too short gives an empty
change.
-/

namespace MdxLocalization

/-- Each node of a tree has a span, which holds those of its attributes and, behind them, those of
its children, one after the other. -/
inductive Node.InPlace : Node → Prop where
  | mk {info : NodeInfo} {children : List Node} {span : Span} (placed : info.span = some span)
      (spaced : Spaced span.start span.stop children)
      (attributes : ∀ a ∈ info.attributes, ∀ value, a.valueSpan = some value →
        span.start ≤ value.start ∧ value.stop ≤ span.stop ∧
          ∀ first ∈ children.head?, ∀ next, first.span = some next → value.stop ≤ next.start)
      (below : ∀ child ∈ children, InPlace child) : InPlace (.mk info children)

theorem Node.WellPositioned.inPlace {length : Nat} {node : Node}
    (positioned : node.WellPositioned length) : node.InPlace := by
  induction positioned with
  | mk placed _ spaced attributes _ _ hypothesis =>
      refine .mk placed spaced ?_ hypothesis
      intro a member value known
      obtain ⟨after, before, front, -⟩ := attributes a member value known
      exact ⟨after, before, front⟩

theorem Node.Spaced.bounds {lower upper : Int} {children : List Node}
    (spaced : Spaced lower upper children) {child : Node} (member : child ∈ children) :
    ∃ span, child.span = some span ∧ lower ≤ span.start ∧ span.start ≤ span.stop ∧
      span.stop ≤ upper := by
  induction children generalizing lower with
  | nil =>
      cases member
  | cons first rest hypothesis =>
      obtain ⟨span, placed, after, proper, others⟩ := spaced
      rcases List.mem_cons.mp member with rfl | inRest
      · exact ⟨span, placed, after, proper, others.le⟩
      · obtain ⟨other, known, later, inOrder, before⟩ := hypothesis others inRest
        exact ⟨other, known, by omega, inOrder, before⟩

namespace Extract

variable {s : Settings}

/-! ### One step of a survey -/

theorem survey_after_kind (top : Bool) (node : Node) :
    (survey s top node).after.kind = node.kind := by
  obtain ⟨info, children⟩ := node
  rw [survey.eq_def]
  dsimp only
  repeat' (first | rfl | split)

theorem Yields.surveyAll_cons {top : Bool} {child : Node} {rest : List Node}
    {first others whole : List Change → Prop} (head : Yields s first (survey s top child).result)
    (tail : Yields s others (surveyAll s top rest).result)
    (joined : ∀ changes later, first changes → others later → whole (changes ++ later)) :
    Yields s whole (surveyAll s top (child :: rest)).result := by
  unfold surveyAll
  cases outcome : (survey s top child).result with
  | error e =>
      rw [outcome] at head
      simp only [outcome]
      exact head.of_error
  | ok changes =>
      rw [outcome] at head
      simp only [outcome]
      exact tail.map fun later given => joined changes later head given

theorem Yields.surveyTopLevel_cons {child : Node} {rest : List Node}
    {first others whole : List Change → Prop}
    (head : isTopLevelKind child.kind = true → Yields s first (survey s true child).result)
    (tail : Yields s others (surveyTopLevel s rest).result)
    (joined : ∀ changes later, isTopLevelKind child.kind = true → first changes → others later →
      whole (changes ++ later))
    (skipped : ∀ later, isTopLevelKind child.kind = false → others later → whole later) :
    Yields s whole (surveyTopLevel s (child :: rest)).result := by
  unfold surveyTopLevel
  cases top : isTopLevelKind child.kind with
  | false =>
      exact tail.imp fun later given => skipped later top given
  | true =>
      have known := head top
      rw [if_pos rfl]
      cases outcome : (survey s true child).result with
      | error e =>
          rw [outcome] at known
          simp only [outcome]
          exact known.of_error
      | ok changes =>
          rw [outcome] at known
          simp only [outcome]
          exact tail.map fun later given => joined changes later top known given

/-- A child that yields changes, or is a list, stands apart from the stretches; any other child goes
into the stretch that is being collected. -/
theorem Yields.surveyBlock_cons {current : Option Stretch} {child : Node} {rest : List Node}
    {span : Span} {first : List Change → Prop} {whole : List BlockItem → Prop}
    (placed : child.span = some span) (head : Yields s first (survey s false child).result)
    (apart : ∀ changes, first changes → changes ≠ [] ∨ child.kind = .list →
      Yields s (fun items => whole (finish current ++ changes.map .change ++ items))
        (surveyBlock s none rest).result)
    (silent : first [] → child.kind ≠ .list → ∀ text,
      Yields s whole (surveyBlock s (some (extend current text span)) rest).result) :
    Yields s whole (surveyBlock s current (child :: rest)).result := by
  have known : (survey s false child).after.info.spanOrFail = .ok span := by
    have same : (survey s false child).after.info.span = some span :=
      (survey_after_span false child).trans placed
    simp [NodeInfo.spanOrFail, same]
  unfold surveyBlock
  cases outcome : (survey s false child).result with
  | error e =>
      rw [outcome] at head
      simp only [outcome]
      exact head.of_error
  | ok changes =>
      rw [outcome] at head
      simp only [outcome, known, survey_after_kind]
      cases changes with
      | nil =>
          by_cases list : child.kind = .list
          · simp only [list, List.isEmpty_nil, Bool.not_true, decide_true, Bool.or_true, if_true]
            exact (apart [] head (.inr list)).map fun _ given => given
          · simp only [list, List.isEmpty_nil, Bool.not_true, decide_false, Bool.or_false,
              Bool.false_eq_true, if_false]
            exact silent head list _
      | cons c changes =>
          simp only [List.isEmpty_cons, Bool.not_false, Bool.true_or, if_true]
          exact (apart _ head (.inl (List.cons_ne_nil c changes))).map fun _ given => given

/-- The body of a directive: its children without the label. -/
def bodyOf : List Node → List Node
  | [] => []
  | first :: rest => if first.info.flag "directiveLabel" then rest else first :: rest

/-- The changes for a label: one in the span of the first child, without its brackets, or none. -/
def LabelChanges (children : List Node) (changes : List Change) : Prop :=
  changes = [] ∨ ∃ label rest span, children = label :: rest ∧ bodyOf children = rest ∧
    label.span = some span ∧ ∃ c, changes = [c] ∧ c.span = ⟨span.start + 1, span.stop - 1⟩

/-- A directive yields the change for its label and then those of its body. -/
theorem Yields.surveyDirective {info : NodeInfo} {children : List Node}
    {body : List BlockItem → Prop} {whole : List Change → Prop}
    (placed : ∀ child ∈ children, child.span.isSome)
    (labels : ∀ child ∈ children,
      Yields s (fun _ => True) (surveyAll s false child.children).result)
    (items : Yields s body (surveyBlock s none (bodyOf children)).result)
    (joined : ∀ title items, LabelChanges children title → body items →
      whole (title ++ changesOfItems true (directiveNotes "content" info) items)) :
    Yields s whole (surveyDirective s info children).result := by
  cases children with
  | nil =>
      unfold bodyOf surveyBlock at items
      unfold Extract.surveyDirective
      exact joined [] _ (.inl rfl) items
  | cons first rest =>
      obtain ⟨label, inner⟩ := first
      unfold Extract.surveyDirective
      split_ifs with labelled
      · obtain ⟨span, known⟩ := Option.isSome_iff_exists.mp (placed _ List.mem_cons_self)
        have surveyed := labels _ List.mem_cons_self
        have body : bodyOf (.mk label inner :: rest) = rest := if_pos labelled
        rw [body] at items
        have place : label.spanOrFail = .ok span := by
          simp [NodeInfo.spanOrFail, show label.span = some span from known]
        change Yields s _ (surveyAll s false inner).result at surveyed
        simp only [place]
        cases outcome : (surveyAll s false inner).result with
        | error e =>
            rw [outcome] at surveyed
            exact surveyed.of_error
        | ok changes =>
            refine items.map fun found given => joined [_] found (.inr ?_) given
            exact ⟨_, rest, span, rfl, body, known, _, rfl, rfl⟩
      · rw [show bodyOf (.mk label inner :: rest) = .mk label inner :: rest from if_neg labelled]
          at items
        exact items.map fun found given => joined [] found (.inl rfl) given

/-! ### Changes inside two positions -/

/-- The changes that are not empty stand between two positions. -/
def Inside (lower upper : Int) (changes : List Change) : Prop :=
  ∀ c ∈ changes, c.span.start < c.span.stop → lower ≤ c.span.start ∧ c.span.stop ≤ upper

theorem inside_nil (lower upper : Int) : Inside lower upper [] := by
  simp [Inside]

theorem Inside.mono {lower lower' upper upper' : Int} {changes : List Change}
    (inside : Inside lower upper changes) (less : lower' ≤ lower) (more : upper ≤ upper') :
    Inside lower' upper' changes := by
  intro c member filled
  have bounds := inside c member filled
  omega

theorem Inside.append {lower upper : Int} {changes others : List Change}
    (first : Inside lower upper changes) (second : Inside lower upper others) :
    Inside lower upper (changes ++ others) :=
  List.forall_mem_append.mpr ⟨first, second⟩

theorem changesOfItems_append (withStretches : Bool) (notes : Text)
    (items others : List BlockItem) :
    changesOfItems withStretches notes (items ++ others) =
      changesOfItems withStretches notes items ++ changesOfItems withStretches notes others :=
  List.flatMap_append

theorem changesOfItems_changes (withStretches : Bool) (notes : Text) (changes : List Change) :
    changesOfItems withStretches notes (changes.map .change) = changes := by
  unfold changesOfItems
  rw [List.flatMap_map]
  simp

theorem inside_finish {lower upper : Int} {current : Option Stretch}
    (within : StretchWithin lower upper current) (withStretches : Bool) (notes : Text) :
    Inside lower upper (changesOfItems withStretches notes (finish current)) := by
  intro c member filled
  have bounds := (itemsWithin_finish within withStretches notes).2 c member
  omega

theorem LabelChanges.inside {lower upper : Int} {children : List Node} {changes : List Change}
    (label : LabelChanges children changes) (spaced : Node.Spaced lower upper children) :
    Inside lower upper changes := by
  obtain rfl | ⟨first, rest, span, rfl, -, known, c, rfl, place⟩ := label
  · exact inside_nil lower upper
  · obtain ⟨other, placed, after, -, others⟩ := spaced
    cases known.symm.trans placed
    refine List.forall_mem_singleton.mpr fun _ => ?_
    have before := others.le
    rw [place]
    constructor <;> dsimp only <;> omega

theorem spaced_bodyOf {lower upper : Int} {children : List Node}
    (spaced : Node.Spaced lower upper children) : Node.Spaced lower upper (bodyOf children) := by
  cases children with
  | nil =>
      exact spaced
  | cons first rest =>
      rw [bodyOf]
      split_ifs
      · obtain ⟨span, -, after, proper, others⟩ := spaced
        exact others.mono (Int.le_trans after proper)
      · exact spaced

theorem mem_of_mem_bodyOf {children : List Node} {child : Node} (member : child ∈ bodyOf children) :
    child ∈ children := by
  cases children with
  | nil =>
      exact member
  | cons first rest =>
      rw [bodyOf] at member
      split_ifs at member
      · exact List.mem_cons_of_mem first member
      · exact member

/-! ### Bounds of a survey -/

/-- No change of a node, and none of its children surveyed one by one, leaves its span. -/
def StaysInside (s : Settings) (node : Node) : Prop :=
  ∀ top span, node.span = some span →
    Yields s (Inside span.start span.stop) (survey s top node).result ∧
      Yields s (Inside span.start span.stop) (surveyAll s top node.children).result

theorem surveyAll_inside {top : Bool} {lower upper : Int} {children : List Node}
    (spaced : Node.Spaced lower upper children) (each : ∀ child ∈ children, StaysInside s child) :
    Yields s (Inside lower upper) (surveyAll s top children).result := by
  induction children generalizing lower with
  | nil =>
      unfold surveyAll
      exact inside_nil lower upper
  | cons child rest hypothesis =>
      obtain ⟨span, placed, after, proper, others⟩ := spaced
      obtain ⟨head, tail⟩ := List.forall_mem_cons.mp each
      refine (head top span placed).1.surveyAll_cons (hypothesis others tail) ?_
      intro changes later inside behind
      exact (inside.mono after others.le).append
        (behind.mono (Int.le_trans after proper) (Int.le_refl _))

theorem surveyBlock_inside {lower cursor upper : Int} {current : Option Stretch}
    {children : List Node} (within : StretchWithin lower cursor current)
    (spaced : Node.Spaced cursor upper children) (each : ∀ child ∈ children, StaysInside s child) :
    Yields s (fun items => ∀ withStretches notes,
        Inside lower upper (changesOfItems withStretches notes items))
      (surveyBlock s current children).result := by
  induction children generalizing lower cursor current with
  | nil =>
      unfold surveyBlock
      intro withStretches notes
      exact (inside_finish within withStretches notes).mono (Int.le_refl _) spaced
  | cons child rest hypothesis =>
      obtain ⟨span, placed, after, proper, others⟩ := spaced
      obtain ⟨head, tail⟩ := List.forall_mem_cons.mp each
      have lowerLe := within.le
      have before := others.le
      refine Yields.surveyBlock_cons placed (head false span placed).1 ?_ ?_
      · intro changes inside _
        refine (hypothesis (stretchWithin_none span.stop) others tail).imp ?_
        intro items behind withStretches notes
        rw [changesOfItems_append, changesOfItems_append, changesOfItems_changes]
        have collected := inside_finish within withStretches notes
        refine ((collected.mono ?_ ?_).append (inside.mono ?_ ?_)).append
          ((behind withStretches notes).mono ?_ ?_) <;> omega
      · intro _ _ text
        exact hypothesis (within.extend text after proper) others tail

theorem surveyDirective_inside {info : NodeInfo} {lower upper : Int} {children : List Node}
    (spaced : Node.Spaced lower upper children) (each : ∀ child ∈ children, StaysInside s child) :
    Yields s (Inside lower upper) (surveyDirective s info children).result := by
  have body := surveyBlock_inside (stretchWithin_none lower) (spaced_bodyOf spaced)
    fun child member => each child (mem_of_mem_bodyOf member)
  refine Yields.surveyDirective ?_ ?_ body ?_
  · intro child member
    obtain ⟨span, placed, -⟩ := spaced.bounds member
    simp [placed]
  · intro child member
    obtain ⟨span, placed, -⟩ := spaced.bounds member
    exact (each child member false span placed).2.imp fun _ _ => trivial
  · intro title items label inside
    exact (label.inside spaced).append (inside true _)

/-- The change for a title has the span of an attribute. -/
theorem titleAttribute_span {info : NodeInfo} {c : Change} (member : c ∈ (titleAttribute info).1) :
    ∃ a ∈ info.attributes, a.valueSpan = some c.span := by
  unfold titleAttribute at member
  dsimp only at member
  split at member
  · cases member
  · rename_i a found
    split at member
    · cases member
    · rename_i span literal
      split at member
      · cases member
      · cases List.mem_singleton.mp member
        exact ⟨a, List.mem_of_find?_eq_some found, literal⟩

theorem staysInside_of_inPlace {node : Node} (inPlace : node.InPlace) : StaysInside s node := by
  induction inPlace with
  | @mk info children span placed spaced attributes below hypothesis =>
      intro top other known
      have same : other = span := Option.some.inj (known.symm.trans placed)
      subst same
      have present : info.span.isSome := by simp [placed]
      have empty : Yields s (Inside other.start other.stop) (.ok []) := inside_nil _ _
      have all (top : Bool) :
          Yields s (Inside other.start other.stop) (surveyAll s top children).result :=
        surveyAll_inside spaced hypothesis
      have title : Inside other.start other.stop (titleAttribute info).1 := by
        intro c member _
        obtain ⟨a, listed, value⟩ := titleAttribute_span member
        obtain ⟨after, before, -⟩ := attributes a listed c.span value
        exact ⟨after, before⟩
      refine ⟨?_, all top⟩
      by_cases flat : info.kind ∈ [NodeKind.list, .listItem, .table, .tableRow]
      · rw [survey_flat flat present]
        exact all true
      by_cases block : info.kind ∈ [NodeKind.heading, .paragraph, .tableCell]
      · rw [survey_block block present]
        apply (surveyBlock_inside (stretchWithin_none other.start) spaced hypothesis).map
        intro items inside
        exact inside top []
      by_cases directive : info.kind = .directive
      · rw [survey_directive directive present]
        exact surveyDirective_inside spaced hypothesis
      by_cases element : info.kind = .jsxElement
      · obtain nothing | titled | both := survey_element s top element present
        · rw [nothing]
          exact empty
        · rw [titled]
          exact title
        · rw [both]
          exact (all true).map fun changes inside => title.append inside
      by_cases link : info.kind = .link
      · obtain nothing | ⟨url, e, failed, result⟩ := survey_link s top link present
        · rw [nothing]
          exact empty
        · rw [result]
          exact ⟨url, failed⟩
      · rw [survey_other _ present]
        · exact empty
        · simp only [List.mem_cons, List.not_mem_nil, or_false, not_or] at flat block ⊢
          simp [flat, block, directive, element, link]

end Extract

end MdxLocalization
