import MdxLocalization.Proofs.SurveyBounds

/-!
# What a survey does when it succeeds

One rule for each function of a survey says everything that a run of it can do when it does not
fail: which parts were surveyed, what they gave, how the changes are put together, and what is left
of the tree.
-/

namespace MdxLocalization.Extract

variable {s : Settings} {top : Bool} {info : NodeInfo} {children rest : List Node} {node : Node}
  {changes all : List Change} {items : List BlockItem} {current : Option Stretch}

theorem exists_of_map_eq_ok {ε α β : Type} {x : Except ε α} {f : α → β} {b : β}
    (mapped : x.map f = .ok b) : ∃ a, x = .ok a ∧ f a = b := by
  cases x with
  | error e =>
      cases mapped
  | ok a =>
      exact ⟨a, rfl, Except.ok.inj mapped⟩

theorem exists_of_bind_eq_ok {ε α β : Type} {x : Except ε α} {f : α → Except ε β} {b : β}
    (bound : x >>= f = .ok b) : ∃ a, x = .ok a ∧ f a = .ok b := by
  cases x with
  | error e =>
      cases bound
  | ok a =>
      exact ⟨a, rfl, bound⟩

theorem of_mapError_eq_ok {ε δ α : Type} {x : Except ε α} {f : ε → δ} {a : α}
    (mapped : x.mapError f = .ok a) : x = .ok a := by
  cases x with
  | error e =>
      cases mapped
  | ok b =>
      rw [Except.ok.inj mapped]

/-! ### Nodes -/

/-- Whether the survey of a node goes on to its children. -/
def leadsOn (info : NodeInfo) : Bool :=
  match info.kind with
  | .list | .listItem | .table | .tableRow | .paragraph | .heading | .tableCell | .directive => true
  | .jsxElement => info.name = some (Text.ofString "AccordionItem")
  | _ => false

/-- How a node was surveyed that gave changes and left another node. -/
inductive SurveyedAs (s : Settings) (top : Bool) (info : NodeInfo) (children : List Node)
    (changes : List Change) : Node → Prop where
  | link (kind : info.kind = .link) (nothing : changes = []) (unaddressed : info.url = none) :
      SurveyedAs s top info children changes (.mk info children)
  | localized {url address : Text} (kind : info.kind = .link) (nothing : changes = [])
      (addressed : info.url = some url)
      (localized : Url.localize s.locale s.placeholder url = .ok address) :
      SurveyedAs s top info children changes (.mk { info with url := some address } children)
  | shut (kind : info.kind ≠ .link) (shut : leadsOn info = false)
      (titles : changes ⊆ (titleAttribute info).1) :
      SurveyedAs s top info children changes (.mk info children)
  | flat {titles inner : List Change} (kind : info.kind ≠ .link) (leads : leadsOn info = true)
      (noDirective : info.kind ≠ .directive) (isTitle : titles ⊆ (titleAttribute info).1)
      (surveyed : (surveyAll s true children).result = .ok inner)
      (whole : changes = titles ++ inner) :
      SurveyedAs s top info children changes (.mk info (surveyAll s true children).after)
  | block {items : List BlockItem} (kind : info.kind ∈ [NodeKind.heading, .paragraph, .tableCell])
      (surveyed : (surveyBlock s none children).result = .ok items)
      (whole : changes = changesOfItems top [] items) :
      SurveyedAs s top info children changes (.mk info (surveyBlock s none children).after)
  | directive (kind : info.kind = .directive)
      (surveyed : (surveyDirective s info children).result = .ok changes) :
      SurveyedAs s top info children changes (.mk info (surveyDirective s info children).after)

theorem titleAttribute_kind {c : Change} (member : c ∈ (titleAttribute info).1) :
    c.kind = .title := by
  unfold titleAttribute at member
  dsimp only at member
  repeat' split at member
  · cases member
  · cases member
  · cases member
  · rw [List.mem_singleton.mp member]

theorem mayHoldContent_of_leadsOn (leads : leadsOn info = true) :
    mayHoldContent info.kind = true := by
  unfold leadsOn at leads
  split at leads <;> simp_all [mayHoldContent]

theorem surveyedAs_of_ok (surveyed : (survey s top (.mk info children)).result = .ok changes) :
    SurveyedAs s top info children changes (survey s top (.mk info children)).after := by
  rw [survey] at surveyed ⊢
  by_cases holds : mayHoldContent info.kind = true
  · have placed : ¬(!children.isEmpty && info.span.isNone) = true := by
      intro unplaced
      simp only [holds, unplaced] at surveyed
      cases surveyed
    simp only [holds, placed, Bool.not_true, Bool.false_eq_true, if_false] at surveyed ⊢
    cases kind : info.kind with
    | link =>
        simp only [kind] at surveyed ⊢
        cases address : info.url with
        | none =>
            simp only [address] at surveyed ⊢
            cases surveyed
            exact .link kind rfl address
        | some url =>
            simp only [address] at surveyed ⊢
            cases localized : Url.localize s.locale s.placeholder url with
            | ok address' =>
                simp only [localized] at surveyed ⊢
                cases surveyed
                rw [← kind]
                exact .localized kind rfl address localized
            | error e =>
                simp only [localized] at surveyed
                cases surveyed
    | jsxElement =>
        simp only [kind] at surveyed ⊢
        by_cases relative : info.name = some (Text.ofString "RelativeLink")
        · rw [if_pos relative] at surveyed ⊢
          cases surveyed
          refine .shut (by simp [kind]) ?_ (List.Subset.refl _)
          simp only [leadsOn, kind, relative]
          decide
        · rw [if_neg relative] at surveyed ⊢
          by_cases accordion : info.name = some (Text.ofString "AccordionItem")
          · rw [if_pos accordion] at surveyed ⊢
            obtain ⟨inner, read, whole⟩ := exists_of_map_eq_ok surveyed
            exact .flat (by simp [kind]) (by simp [leadsOn, kind, accordion]) (by simp [kind])
              (List.Subset.refl _) read whole.symm
          · rw [if_neg accordion] at surveyed ⊢
            cases surveyed
            exact .shut (by simp [kind]) (by simp [leadsOn, kind, accordion]) (by simp)
    | list | listItem | table | tableRow =>
        simp only [kind] at surveyed ⊢
        exact .flat (by simp [kind]) (by simp [leadsOn, kind]) (by simp [kind])
          (List.nil_subset _) surveyed (List.nil_append changes).symm
    | heading | paragraph | tableCell =>
        simp only [kind] at surveyed ⊢
        obtain ⟨items, read, whole⟩ := exists_of_map_eq_ok surveyed
        exact .block (by simp [kind]) read whole.symm
    | directive =>
        simp only [kind] at surveyed ⊢
        exact .directive kind surveyed
    | image =>
        simp only [kind] at surveyed ⊢
        cases surveyed
        exact .shut (by simp [kind]) (by simp [leadsOn, kind]) (by simp)
    | _ =>
        simp [kind, mayHoldContent] at holds
  · simp only [holds, Bool.not_false, if_true] at surveyed ⊢
    cases surveyed
    refine .shut ?_ ?_ (by simp)
    · intro link
      simp [link, mayHoldContent] at holds
    · by_contra leads
      exact holds (mayHoldContent_of_leadsOn (by simpa using leads))

/-! ### Siblings -/

theorem surveyAll_cons_eq_ok (surveyed : (surveyAll s top (node :: rest)).result = .ok all) :
    ∃ changes later, (survey s top node).result = .ok changes ∧
      (surveyAll s top rest).result = .ok later ∧ all = changes ++ later ∧
      (surveyAll s top (node :: rest)).after =
        (survey s top node).after :: (surveyAll s top rest).after := by
  rw [surveyAll] at surveyed ⊢
  cases outcome : (survey s top node).result with
  | error e =>
      simp only [outcome] at surveyed
      cases surveyed
  | ok changes =>
      simp only [outcome] at surveyed ⊢
      obtain ⟨later, found, whole⟩ := exists_of_map_eq_ok surveyed
      exact ⟨changes, later, rfl, found, whole.symm, trivial⟩

theorem surveyTopLevel_cons_eq_ok (kind : isTopLevelKind node.kind = true)
    (surveyed : (surveyTopLevel s (node :: rest)).result = .ok all) :
    ∃ changes later, (survey s true node).result = .ok changes ∧
      (surveyTopLevel s rest).result = .ok later ∧ all = changes ++ later ∧
      (surveyTopLevel s (node :: rest)).after =
        (survey s true node).after :: (surveyTopLevel s rest).after := by
  rw [surveyTopLevel, if_pos kind] at surveyed ⊢
  cases outcome : (survey s true node).result with
  | error e =>
      simp only [outcome] at surveyed
      cases surveyed
  | ok changes =>
      simp only [outcome] at surveyed ⊢
      obtain ⟨later, found, whole⟩ := exists_of_map_eq_ok surveyed
      exact ⟨changes, later, rfl, found, whole.symm, trivial⟩

/-! ### Children of a block -/

/-- How a block goes on behind a child that gave some changes: the items that are finished with it
and the stretch that is collected then. A child that gives changes, or is a list, stands apart. -/
inductive Passes (s : Settings) (current : Option Stretch) (node : Node) (changes : List Change) :
    List BlockItem → Option Stretch → Prop where
  | apart (different : changes ≠ [] ∨ node.kind = .list) :
      Passes s current node changes (finish current ++ changes.map .change) none
  | joins {span : Span} (silent : changes = []) (noList : node.kind ≠ .list)
      (placed : node.span = some span) :
      Passes s current node changes []
        (some (extend current (childText s.source (survey s false node).after) span))

theorem surveyBlock_cons_eq_ok
    (surveyed : (surveyBlock s current (node :: rest)).result = .ok items) :
    ∃ changes finished next later, (survey s false node).result = .ok changes ∧
      Passes s current node changes finished next ∧
      (surveyBlock s next rest).result = .ok later ∧ items = finished ++ later ∧
      (surveyBlock s current (node :: rest)).after =
        (survey s false node).after :: (surveyBlock s next rest).after := by
  rw [surveyBlock] at surveyed ⊢
  cases outcome : (survey s false node).result with
  | error e =>
      simp only [outcome] at surveyed
      cases surveyed
  | ok changes =>
      simp only [outcome, survey_after_kind] at surveyed ⊢
      split at surveyed
      · rename_i apart
        have different : changes ≠ [] ∨ node.kind = .list := by simpa using apart
        rw [if_pos apart]
        obtain ⟨later, found, whole⟩ := exists_of_map_eq_ok surveyed
        exact ⟨changes, _, none, later, rfl, .apart different, found, whole.symm, rfl⟩
      · rename_i alike
        have silent : changes = [] ∧ node.kind ≠ .list := by simpa using alike
        rw [if_neg alike]
        have same := survey_after_span (s := s) false node
        unfold NodeInfo.spanOrFail at surveyed ⊢
        change (survey s false node).after.info.span = node.info.span at same
        rw [same] at surveyed ⊢
        cases placed : node.info.span with
        | none =>
            simp only [placed] at surveyed
            cases surveyed
        | some span =>
            simp only [placed] at surveyed ⊢
            exact ⟨changes, [], _, items, rfl, .joins silent.1 silent.2 placed, surveyed, rfl, rfl⟩

/-! ### Directives -/

/-- The label of a directive: its first child, if that is marked as one. -/
def labelOf (children : List Node) : Option Node :=
  children.head?.filter (·.info.flag "directiveLabel")

/-- What a directive gives for its label. -/
inductive LabelSurveyed (s : Settings) (info : NodeInfo) (children : List Node) :
    List Change → Prop where
  | absent (unlabelled : labelOf children = none) : LabelSurveyed s info children []
  | label {label : Node} {span : Span} {inner : List Change}
      (labelled : labelOf children = some label) (placed : label.span = some span)
      (surveyed : (surveyAll s false label.children).result = .ok inner) :
      LabelSurveyed s info children
        [labelChange s.source info span (surveyAll s false label.children).after]

theorem surveyDirective_eq_ok
    (surveyed : (surveyDirective s info children).result = .ok changes) :
    ∃ titles items, LabelSurveyed s info children titles ∧
      (surveyBlock s none (bodyOf children)).result = .ok items ∧
      changes = titles ++ changesOfItems true (directiveNotes "content" info) items ∧
      (surveyDirective s info children).after = (surveyBlock s none (bodyOf children)).after := by
  cases children with
  | nil =>
      rw [surveyDirective] at surveyed ⊢
      cases surveyed
      refine ⟨[], [], .absent rfl, ?_, rfl, ?_⟩
      · rw [bodyOf, surveyBlock]
        rfl
      · rw [bodyOf, surveyBlock]
  | cons first rest =>
      obtain ⟨label, inner⟩ := first
      rw [surveyDirective] at surveyed ⊢
      by_cases labelled : label.flag "directiveLabel" = true
      · rw [if_pos labelled] at surveyed ⊢
        have isLabel : labelOf (.mk label inner :: rest) = some (.mk label inner) :=
          Option.filter_some_pos labelled
        have body : bodyOf (.mk label inner :: rest) = rest := if_pos labelled
        unfold NodeInfo.spanOrFail at surveyed ⊢
        cases placed : label.span with
        | none =>
            simp only [placed] at surveyed
            cases surveyed
        | some span =>
            simp only [placed] at surveyed ⊢
            cases outcome : (surveyAll s false inner).result with
            | error e =>
                simp only [outcome] at surveyed
                cases surveyed
            | ok given =>
                simp only [outcome] at surveyed ⊢
                obtain ⟨items, found, whole⟩ := exists_of_map_eq_ok surveyed
                refine ⟨[labelChange s.source info span (surveyAll s false inner).after], items,
                  .label isLabel placed outcome, ?_, whole.symm, ?_⟩
                · rw [body]
                  exact found
                · rw [body]
      · rw [if_neg labelled] at surveyed ⊢
        have noLabel : labelOf (.mk label inner :: rest) = none :=
          Option.filter_some_neg (Bool.eq_false_iff.mpr labelled)
        have body : bodyOf (.mk label inner :: rest) = .mk label inner :: rest := if_neg labelled
        obtain ⟨items, found, whole⟩ := exists_of_map_eq_ok surveyed
        refine ⟨[], items, .absent noLabel, ?_, whole.symm, ?_⟩
        · rw [body]
          exact found
        · rw [body]

end MdxLocalization.Extract
