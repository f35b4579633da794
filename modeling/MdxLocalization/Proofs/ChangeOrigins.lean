import MdxLocalization.Proofs.SurveyCoverage
import MdxLocalization.Proofs.SurveyFootprint

/-!
# What a change is written from

The text of a change for content is that of some children of a block or of a directive, next to one
another: those between two children that give changes of their own. The text of a label is that of
its children. Which nodes a change is written from can be told from the tree before the survey, and
the text is that of what the survey makes of them.
-/

namespace MdxLocalization.Extract

variable {s : Settings} {top : Bool} {info : NodeInfo} {node child target : Node}
  {children nodes run done : List Node} {changes all : List Change} {items : List BlockItem}
  {current : Option Stretch} {c : Change}

/-! ### Stretches -/

/-- The text that is written from some nodes for a change of a kind. -/
def writtenText (source : Text) : ChangeKind → List Node → Text
  | .directiveLabel, nodes => Text.dropLineBreak (sourceTexts source nodes)
  | _, nodes => nodes.flatMap (childText source)

/-- A change for content or for a label, and the nodes that it is written from: children of a block
or directive next to one another that give nothing of their own, or the content of the label of a
directive. -/
inductive WrittenFrom (s : Settings) (info : NodeInfo) (children : List Node) (c : Change) :
    List Node → Prop where
  | content {front run back : List Node} (kind : c.kind = .content) (leads : leadsOn info = true)
      (among : keptOf info children = front ++ run ++ back)
      (silent : ∀ node ∈ run, (survey s false node).result = .ok [])
      (range : contentSpan run = some c.span)
      (text : c.text = writtenText s.source c.kind (run.map (localized s))) :
      WrittenFrom s info children c run
  | label {label : Node} {span : Span} {inner : List Change} (kind : c.kind = .directiveLabel)
      (directive : info.kind = .directive) (labelled : labelOf children = some label)
      (surveyed : (surveyAll s false label.children).result = .ok inner)
      (placed : label.span = some span) (range : c.span = ⟨span.start + 1, span.stop - 1⟩)
      (text : c.text = writtenText s.source c.kind (label.children.map (localized s))) :
      WrittenFrom s info children c label.children

/-- A stretch is written from nodes that give nothing of their own. -/
structure Collected (s : Settings) (run : List Node) (stretch : Stretch) : Prop where
  silent : ∀ node ∈ run, (survey s false node).result = .ok []
  range : contentSpan run = some stretch.span
  text : stretch.text = (run.map (localized s)).flatMap (childText s.source)

/-- What has been collected so far is written from the nodes behind the last that stood apart. -/
def Collecting (s : Settings) (run : List Node) : Option Stretch → Prop
  | none => run = []
  | some stretch => Collected s run stretch

theorem collecting_nil (s : Settings) : Collecting s [] none := rfl

theorem contentSpan_concat {first last : Span} (range : contentSpan run = some first)
    (placed : node.span = some last) :
    contentSpan (run ++ [node]) = some ⟨first.start, last.stop⟩ := by
  cases run with
  | nil =>
      cases range
  | cons head rest =>
      simp only [contentSpan, Option.bind_eq_bind, Option.bind_eq_some_iff, Option.pure_def,
        Option.some.injEq] at range
      obtain ⟨start, ⟨other, isHead, known⟩, final, -, rfl⟩ := range
      cases isHead
      have last : (head :: (rest ++ [node])).getLast? = some node := by
        rw [← List.cons_append, List.getLast?_concat]
      simp [contentSpan, last, known, placed]

theorem Collecting.extend {span : Span} (collecting : Collecting s run current)
    (silent : (survey s false node).result = .ok []) (placed : node.span = some span) :
    Collecting s (run ++ [node])
      (some (extend current (childText s.source (survey s false node).after) span)) := by
  rw [survey_after s node false [] silent]
  cases current with
  | none =>
      rw [show run = [] from collecting]
      refine ⟨List.forall_mem_singleton.mpr silent, ?_, ?_⟩
      · simp [contentSpan, placed, Extract.extend]
      · simp [Extract.extend]
  | some stretch =>
      refine ⟨?_, contentSpan_concat collecting.range placed, ?_⟩
      · exact List.forall_mem_append.mpr
          ⟨collecting.silent, List.forall_mem_singleton.mpr silent⟩
      · simp [Extract.extend, collecting.text]

/-- Each stretch of a block is written from a run of the children, to which the nodes belong that
have been collected before. -/
theorem exists_collected {text : Text} {span : Span} (collecting : Collecting s done current)
    (surveyed : (surveyBlock s current nodes).result = .ok items)
    (member : .stretch text span ∈ items) :
    ∃ front run back, done ++ nodes = front ++ run ++ back ∧ Collected s run ⟨text, span⟩ := by
  have finished {current : Option Stretch} {done : List Node}
      (collecting : Collecting s done current) (isLast : .stretch text span ∈ finish current) :
      Collected s done ⟨text, span⟩ := by
    cases current with
    | none =>
        cases isLast
    | some stretch =>
        obtain ⟨rfl, rfl⟩ := BlockItem.stretch.inj (List.mem_singleton.mp isLast)
        exact collecting
  induction nodes generalizing done current items with
  | nil =>
      rw [surveyBlock] at surveyed
      cases surveyed
      exact ⟨[], done, [], by simp, finished collecting member⟩
  | cons node rest hypothesis =>
      obtain ⟨changes, ended, next, later, first, passes, found, rfl, -⟩ :=
        surveyBlock_cons_eq_ok surveyed
      cases passes with
      | apart different =>
          rcases List.mem_append.mp member with before | behind
          · rcases List.mem_append.mp before with last | own
            · exact ⟨[], done, node :: rest, by simp, finished collecting last⟩
            · obtain ⟨other, -, same⟩ := List.mem_map.mp own
              cases same
          · obtain ⟨front, run, back, whole, collected⟩ :=
              hypothesis (collecting_nil s) found behind
            refine ⟨done ++ node :: front, run, back, ?_, collected⟩
            rw [List.nil_append] at whole
            simp [whole]
      | joins silent noList placed =>
          rw [silent] at first
          rw [List.nil_append] at member
          obtain ⟨front, run, back, whole, collected⟩ :=
            hypothesis (collecting.extend first placed) found member
          exact ⟨front, run, back, by simpa using whole, collected⟩

/-! ### Changes of a node -/

theorem exists_of_change_mem_surveyAll (surveyed : (surveyAll s top nodes).result = .ok all)
    (member : c ∈ all) :
    ∃ node ∈ nodes, ∃ changes, (survey s top node).result = .ok changes ∧ c ∈ changes := by
  induction nodes generalizing all with
  | nil =>
      rw [surveyAll] at surveyed
      cases surveyed
      cases member
  | cons node rest hypothesis =>
      obtain ⟨changes, later, first, found, rfl, -⟩ := surveyAll_cons_eq_ok surveyed
      rcases List.mem_append.mp member with own | behind
      · exact ⟨node, List.mem_cons_self, changes, first, own⟩
      · obtain ⟨other, inRest, given⟩ := hypothesis found behind
        exact ⟨other, List.mem_cons_of_mem node inRest, given⟩

theorem exists_of_change_mem_surveyTopLevel (surveyed : (surveyTopLevel s nodes).result = .ok all)
    (member : c ∈ all) :
    ∃ node ∈ nodes, isTopLevelKind node.kind = true ∧
      ∃ changes, (survey s true node).result = .ok changes ∧ c ∈ changes := by
  induction nodes generalizing all with
  | nil =>
      rw [surveyTopLevel] at surveyed
      cases surveyed
      cases member
  | cons node rest hypothesis =>
      by_cases kind : isTopLevelKind node.kind = true
      · obtain ⟨changes, later, first, found, rfl, -⟩ := surveyTopLevel_cons_eq_ok kind surveyed
        rcases List.mem_append.mp member with own | behind
        · exact ⟨node, List.mem_cons_self, kind, changes, first, own⟩
        · obtain ⟨other, inRest, given⟩ := hypothesis found behind
          exact ⟨other, List.mem_cons_of_mem node inRest, given⟩
      · rw [surveyTopLevel, if_neg kind] at surveyed
        obtain ⟨other, inRest, given⟩ := hypothesis surveyed member
        exact ⟨other, List.mem_cons_of_mem node inRest, given⟩

theorem exists_of_change_mem_surveyBlock
    (surveyed : (surveyBlock s current nodes).result = .ok items) (member : .change c ∈ items) :
    ∃ node ∈ nodes, ∃ changes, (survey s false node).result = .ok changes ∧ c ∈ changes := by
  have notLast (current : Option Stretch) : .change c ∉ finish current := by
    cases current <;> simp [finish]
  induction nodes generalizing current items with
  | nil =>
      rw [surveyBlock] at surveyed
      cases surveyed
      exact absurd member (notLast current)
  | cons node rest hypothesis =>
      obtain ⟨changes, ended, next, later, first, passes, found, rfl, -⟩ :=
        surveyBlock_cons_eq_ok surveyed
      rcases List.mem_append.mp member with before | behind
      · cases passes with
        | apart different =>
            rcases List.mem_append.mp before with last | own
            · exact absurd last (notLast current)
            · obtain ⟨other, given, same⟩ := List.mem_map.mp own
              cases same
              exact ⟨node, List.mem_cons_self, changes, first, given⟩
        | joins =>
            cases before
      · obtain ⟨other, inRest, given⟩ := hypothesis found behind
        exact ⟨other, List.mem_cons_of_mem node inRest, given⟩

/-- A change of a block is one of a child, or it is written from a run of the children. -/
theorem change_of_block {withStretches : Bool} {notes : Text} (leads : leadsOn info = true)
    (surveyed : (surveyBlock s none (keptOf info children)).result = .ok items)
    (member : c ∈ changesOfItems withStretches notes items) :
    (∃ node ∈ keptOf info children,
      ∃ changes, (survey s false node).result = .ok changes ∧ c ∈ changes) ∨
      ∃ run, WrittenFrom s info children c run := by
  obtain ⟨item, inItems, given⟩ := List.mem_flatMap.mp member
  cases item with
  | change other =>
      rw [List.mem_singleton.mp given]
      exact .inl (exists_of_change_mem_surveyBlock surveyed inItems)
  | stretch text span =>
      dsimp only at given
      split at given
      · obtain ⟨front, run, back, whole, collected⟩ :=
          exists_collected (collecting_nil s) surveyed inItems
        rw [List.mem_singleton.mp given]
        exact .inr ⟨run, .content rfl leads whole collected.silent collected.range
          collected.text⟩
      · cases given

/-- Where a change for content or a label comes from: from a node that the survey comes to and that
stays in the tree. -/
theorem exists_writtenFrom (kind : c.kind = .content ∨ c.kind = .directiveLabel)
    (surveyed : (survey s top node).result = .ok changes) (member : c ∈ changes) :
    ∃ info children run, Stands .surveyed node .surveyed (.mk info children) ∧
      WrittenFrom s info children c run := by
  induction node using Node.induction generalizing top changes with
  | step info children below =>
      have noTitle : c.kind ≠ .title := by
        rcases kind with kind | kind <;> simp [kind]
      have through {child : Node} {inner : Bool} {given : List Change}
          (leads : leadsOn info = true) (kept : child ∈ keptOf info children)
          (found : (survey s inner child).result = .ok given) (inGiven : c ∈ given) :
          ∃ own others run, Stands .surveyed (.mk info children) .surveyed (.mk own others) ∧
            WrittenFrom s own others c run := by
        obtain ⟨own, others, run, stands, written⟩ :=
          below child (mem_of_mem_keptOf kept) found inGiven
        exact ⟨own, others, run, .kept (by simp) leads kept stands, written⟩
      have done := surveyedAs_of_ok surveyed
      generalize (survey s top (.mk info children)).after = after at done
      cases done with
      | link _ nothing =>
          rw [nothing] at member
          cases member
      | localized _ nothing =>
          rw [nothing] at member
          cases member
      | shut _ _ titles =>
          exact absurd (titleAttribute_kind (titles member)) noTitle
      | flat _ leads noDirective isTitle found whole =>
          rw [whole] at member
          rcases List.mem_append.mp member with title | own
          · exact absurd (titleAttribute_kind (isTitle title)) noTitle
          · obtain ⟨child, isChild, given, outcome, inGiven⟩ :=
              exists_of_change_mem_surveyAll found own
            rw [← keptOf_of_ne children noDirective] at isChild
            exact through leads isChild outcome inGiven
      | block blockKind found whole =>
          have leads := leadsOn_of_block blockKind
          rw [whole] at member
          rw [← keptOf_of_ne children (ne_directive_of_block blockKind)] at found
          rcases change_of_block leads found member with own | ⟨run, written⟩
          · obtain ⟨child, isChild, given, outcome, inGiven⟩ := own
            exact through leads isChild outcome inGiven
          · exact ⟨info, children, run, .here, written⟩
      | directive directive found =>
          have leads : leadsOn info = true := by simp [leadsOn, directive]
          obtain ⟨titles, items, labels, body, rfl, -⟩ := surveyDirective_eq_ok found
          rw [← keptOf_of_directive children directive] at body
          rcases List.mem_append.mp member with isLabel | content
          · cases labels with
            | absent =>
                cases isLabel
            | @label label span inner labelled placed outcome =>
                have after := surveyAll_after (fun child _ => survey_after s child) outcome
                rw [List.mem_singleton.mp isLabel]
                refine ⟨info, children, _, .here, .label rfl directive labelled outcome placed rfl
                  ?_⟩
                rw [after]
                rfl
          · rcases change_of_block leads body content with own | ⟨run, written⟩
            · obtain ⟨child, isChild, given, outcome, inGiven⟩ := own
              exact through leads isChild outcome inGiven
            · exact ⟨info, children, run, .here, written⟩

end MdxLocalization.Extract
