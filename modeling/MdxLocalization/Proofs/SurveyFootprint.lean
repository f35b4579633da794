import MdxLocalization.Proofs.SurveySuccess

/-!
# What a survey changes in the tree

A survey alters the tree while it reads it: the text of a block is written from the children as they
are by then. What is left of the tree in the end can be said without following the survey. The nodes
that it comes to are known from the tree alone; of these, links have their address localised, once,
and directives lose their label. Everything else stays as it was.
-/

namespace MdxLocalization

/-- To prove something of a node it may be used of its children. -/
theorem Node.induction {motive : Node → Prop}
    (step : ∀ info children, (∀ child ∈ children, motive child) → motive (.mk info children))
    (node : Node) : motive node :=
  @Node.rec motive (fun nodes => ∀ node ∈ nodes, motive node) step (by simp)
    (fun _ _ first others => List.forall_mem_cons.mpr ⟨first, others⟩) node

namespace Extract

variable {s : Settings} {top : Bool} {info : NodeInfo} {node child label : Node}
  {children nodes : List Node} {changes all : List Change} {items : List BlockItem}
  {current : Option Stretch}

/-! ### The tree afterwards -/

/-- The address of a link localised. Other facts stay as they are, and so does an address that
cannot be localised. -/
def localizedInfo (s : Settings) (info : NodeInfo) : NodeInfo :=
  match info.kind, info.url with
  | .link, some url =>
    match Url.localize s.locale s.placeholder url with
    | .ok address => { info with url := some address }
    | .error _ => info
  | _, _ => info

/-- The children that a node keeps in a survey: a directive loses its label. -/
def keptOf (info : NodeInfo) (children : List Node) : List Node :=
  if info.kind = .directive then bodyOf children else children

mutual

/-- What a node becomes that is surveyed. -/
def localized (s : Settings) : Node → Node
  | .mk info children =>
    if leadsOn info then .mk info (keptOf info (localizedAll s children))
    else .mk (localizedInfo s info) children

def localizedAll (s : Settings) : List Node → List Node
  | [] => []
  | node :: rest => localized s node :: localizedAll s rest

end

theorem localizedAll_eq_map (s : Settings) (nodes : List Node) :
    localizedAll s nodes = nodes.map (localized s) := by
  induction nodes with
  | nil =>
      rfl
  | cons node rest hypothesis =>
      rw [localizedAll, hypothesis, List.map_cons]

theorem localizedInfo_of_not_link (kind : info.kind ≠ .link) : localizedInfo s info = info := by
  unfold localizedInfo
  split
  · exact absurd ‹_› kind
  · rfl

theorem localized_of_leadsOn (leads : leadsOn info = true) :
    localized s (.mk info children) = .mk info (keptOf info (children.map (localized s))) := by
  rw [localized, if_pos leads, localizedAll_eq_map]

theorem localized_of_shut (shut : leadsOn info = false) :
    localized s (.mk info children) = .mk (localizedInfo s info) children := by
  rw [localized, if_neg (by simp [shut])]

/-- A link keeps its facts, apart from the address, and does not lose that. -/
theorem exists_localizedInfo_eq (s : Settings) (info : NodeInfo) :
    ∃ url, localizedInfo s info = { info with url } ∧ url.isSome = info.url.isSome := by
  unfold localizedInfo
  split
  · rename_i addressed
    split
    · exact ⟨_, rfl, by simp [addressed]⟩
    · exact ⟨info.url, rfl, rfl⟩
  · exact ⟨info.url, rfl, rfl⟩

/-- A surveyed node keeps its facts, apart from the address. -/
theorem exists_localized_info_eq (s : Settings) (node : Node) :
    ∃ url, (localized s node).info = { node.info with url } := by
  obtain ⟨info, children⟩ := node
  by_cases leads : leadsOn info = true
  · rw [localized_of_leadsOn leads]
    exact ⟨info.url, rfl⟩
  · rw [localized_of_shut (by simpa using leads)]
    obtain ⟨url, same, -⟩ := exists_localizedInfo_eq s info
    exact ⟨url, same⟩

theorem localized_span (s : Settings) (node : Node) : (localized s node).span = node.span := by
  obtain ⟨url, same⟩ := exists_localized_info_eq s node
  rw [Node.span, same]
  rfl

theorem localized_kind (s : Settings) (node : Node) : (localized s node).kind = node.kind := by
  obtain ⟨url, same⟩ := exists_localized_info_eq s node
  rw [Node.kind, same]
  rfl

theorem bodyOf_map_localized (children : List Node) :
    bodyOf (children.map (localized s)) = (bodyOf children).map (localized s) := by
  cases children with
  | nil =>
      rfl
  | cons first rest =>
      have same : (localized s first).info.flag "directiveLabel" =
          first.info.flag "directiveLabel" := by
        obtain ⟨url, known⟩ := exists_localized_info_eq s first
        rw [known]
        rfl
      rw [List.map_cons, bodyOf, bodyOf, same]
      split_ifs <;> rfl

theorem keptOf_map_localized (info : NodeInfo) (children : List Node) :
    keptOf info (children.map (localized s)) = (keptOf info children).map (localized s) := by
  unfold keptOf
  split_ifs
  · exact bodyOf_map_localized children
  · rfl

theorem keptOf_of_directive (children : List Node) (kind : info.kind = .directive) :
    keptOf info children = bodyOf children :=
  if_pos kind

theorem keptOf_of_ne (children : List Node) (kind : info.kind ≠ .directive) :
    keptOf info children = children :=
  if_neg kind

theorem mem_of_mem_keptOf (member : child ∈ keptOf info children) : child ∈ children := by
  unfold keptOf at member
  split_ifs at member
  · exact mem_of_mem_bodyOf member
  · exact member

theorem leadsOn_of_block (kind : info.kind ∈ [NodeKind.heading, .paragraph, .tableCell]) :
    leadsOn info = true := by
  simp only [List.mem_cons, List.not_mem_nil, or_false] at kind
  rcases kind with kind | kind | kind <;> simp [leadsOn, kind]

theorem ne_directive_of_block (kind : info.kind ∈ [NodeKind.heading, .paragraph, .tableCell]) :
    info.kind ≠ .directive := by
  intro directive
  simp [directive] at kind

/-! ### Surveying gives that tree -/

/-- Where the survey of a node succeeds, it leaves the node as said above. -/
def LeavesLocalized (s : Settings) (node : Node) : Prop :=
  ∀ top changes, (survey s top node).result = .ok changes →
    (survey s top node).after = localized s node

theorem surveyAll_after (each : ∀ node ∈ nodes, LeavesLocalized s node)
    (surveyed : (surveyAll s top nodes).result = .ok all) :
    (surveyAll s top nodes).after = nodes.map (localized s) := by
  induction nodes generalizing all with
  | nil =>
      rw [surveyAll]
      rfl
  | cons node rest hypothesis =>
      obtain ⟨here, later⟩ := List.forall_mem_cons.mp each
      obtain ⟨changes, others, first, found, -, after⟩ := surveyAll_cons_eq_ok surveyed
      rw [after, here _ _ first, hypothesis later found, List.map_cons]

theorem surveyBlock_after (each : ∀ node ∈ nodes, LeavesLocalized s node)
    (surveyed : (surveyBlock s current nodes).result = .ok items) :
    (surveyBlock s current nodes).after = nodes.map (localized s) := by
  induction nodes generalizing current items with
  | nil =>
      rw [surveyBlock]
      rfl
  | cons node rest hypothesis =>
      obtain ⟨here, later⟩ := List.forall_mem_cons.mp each
      obtain ⟨changes, -, next, others, first, -, found, -, after⟩ :=
        surveyBlock_cons_eq_ok surveyed
      rw [after, here _ _ first, hypothesis later found, List.map_cons]

theorem survey_after (s : Settings) (node : Node) : LeavesLocalized s node := by
  induction node using Node.induction with
  | step info children below =>
      intro top changes surveyed
      have done := surveyedAs_of_ok surveyed
      generalize (survey s top (.mk info children)).after = after at done
      cases done with
      | link kind nothing unaddressed =>
          rw [localized_of_shut (by simp [leadsOn, kind]), localizedInfo, kind, unaddressed]
      | localized kind nothing addressed found =>
          rw [localized_of_shut (by simp [leadsOn, kind]), localizedInfo, kind, addressed]
          simp only [found]
      | shut kind shut titles =>
          rw [localized_of_shut shut, localizedInfo_of_not_link kind]
      | flat kind leads noDirective isTitle inner whole =>
          rw [localized_of_leadsOn leads, keptOf_of_ne _ noDirective, surveyAll_after below inner]
      | block kind inner whole =>
          rw [localized_of_leadsOn (leadsOn_of_block kind),
            keptOf_of_ne _ (ne_directive_of_block kind), surveyBlock_after below inner]
      | directive kind inner =>
          obtain ⟨titles, items, -, body, -, after⟩ := surveyDirective_eq_ok inner
          rw [localized_of_leadsOn (by simp [leadsOn, kind]), keptOf_of_directive _ kind,
            bodyOf_map_localized, after,
            surveyBlock_after (fun child member => below child (mem_of_mem_bodyOf member)) body]

theorem surveyTopLevel_after (surveyed : (surveyTopLevel s nodes).result = .ok all) :
    (surveyTopLevel s nodes).after =
      nodes.map fun node => if isTopLevelKind node.kind then localized s node else node := by
  induction nodes generalizing all with
  | nil =>
      rw [surveyTopLevel]
      rfl
  | cons node rest hypothesis =>
      rw [List.map_cons]
      by_cases kind : isTopLevelKind node.kind = true
      · obtain ⟨changes, others, first, found, -, after⟩ := surveyTopLevel_cons_eq_ok kind surveyed
        rw [after, survey_after s node true changes first, hypothesis found, if_pos kind]
      · rw [surveyTopLevel, if_neg kind] at surveyed ⊢
        rw [if_neg kind]
        exact congrArg (node :: ·) (hypothesis surveyed)

/-! ### The nodes that a survey comes to -/

/-- What a survey does with a node. -/
inductive Fate where
  /-- The node is surveyed, and stays in the tree. -/
  | surveyed
  /-- The node is surveyed as a part of a label, which is removed. -/
  | removed
  /-- The survey does not come to the node. -/
  | ignored
  deriving DecidableEq, Repr

/-- A node with some fate holds another one with some fate. -/
inductive Stands : Fate → Node → Fate → Node → Prop where
  | here {fate : Fate} {node : Node} : Stands fate node fate node
  | kept {fate result : Fate} {info : NodeInfo} {children : List Node} {child target : Node}
      (reached : fate ≠ .ignored) (leads : leadsOn info = true)
      (member : child ∈ keptOf info children) (further : Stands fate child result target) :
      Stands fate (.mk info children) result target
  | label {fate result : Fate} {info : NodeInfo} {children : List Node} {label child target : Node}
      (reached : fate ≠ .ignored) (kind : info.kind = .directive)
      (labelled : labelOf children = some label) (member : child ∈ label.children)
      (further : Stands .removed child result target) :
      Stands fate (.mk info children) result target
  | ignored {fate result : Fate} {info : NodeInfo} {children : List Node} {child target : Node}
      (shut : fate = .ignored ∨ leadsOn info = false) (member : child ∈ children)
      (further : Stands .ignored child result target) :
      Stands fate (.mk info children) result target

/-- A document holds a node with some fate. -/
def StandsIn (root : Node) (fate : Fate) (target : Node) : Prop :=
  ∃ node ∈ root.children,
    Stands (if isTopLevelKind node.kind then .surveyed else .ignored) node fate target

/-- The survey of a document comes to a node. -/
def ComesTo (root target : Node) : Prop := ∃ fate, fate ≠ .ignored ∧ StandsIn root fate target

theorem Stands.eq_ignored {result : Fate} {target : Node}
    (stands : Stands .ignored node result target) : result = .ignored := by
  generalize from' : Fate.ignored = fate at stands
  induction stands with
  | here =>
      rfl
  | kept reached =>
      exact absurd from'.symm reached
  | label reached =>
      exact absurd from'.symm reached
  | ignored _ _ _ hypothesis =>
      exact (hypothesis rfl).trans from'

/-- In a label that is removed nothing stays. -/
theorem Stands.ne_surveyed {result : Fate} {target : Node}
    (stands : Stands .removed node result target) : result ≠ .surveyed := by
  generalize from' : Fate.removed = fate at stands
  induction stands with
  | here =>
      simp [← from']
  | kept _ _ _ _ hypothesis =>
      exact hypothesis from'
  | label _ _ _ _ _ hypothesis =>
      exact hypothesis rfl
  | ignored _ _ further _ =>
      simp [further.eq_ignored]

/-! ### What the survey of a node passes on -/

theorem mem_changesOfItems {withStretches : Bool} {notes : Text} {c : Change}
    (member : .change c ∈ items) : c ∈ changesOfItems withStretches notes items :=
  List.mem_flatMap.mpr ⟨.change c, member, List.mem_singleton_self c⟩

theorem exists_of_mem_surveyAll (surveyed : (surveyAll s top nodes).result = .ok all)
    (member : node ∈ nodes) :
    ∃ changes, (survey s top node).result = .ok changes ∧ changes ⊆ all := by
  induction nodes generalizing all with
  | nil =>
      cases member
  | cons other rest hypothesis =>
      obtain ⟨changes, later, first, found, rfl, -⟩ := surveyAll_cons_eq_ok surveyed
      rcases List.mem_cons.mp member with rfl | inRest
      · exact ⟨changes, first, List.subset_append_left changes later⟩
      · obtain ⟨given, outcome, inLater⟩ := hypothesis found inRest
        exact ⟨given, outcome, List.subset_append_of_subset_right changes inLater⟩

theorem exists_of_mem_surveyTopLevel (surveyed : (surveyTopLevel s nodes).result = .ok all)
    (member : node ∈ nodes) (kind : isTopLevelKind node.kind = true) :
    ∃ changes, (survey s true node).result = .ok changes ∧ changes ⊆ all := by
  induction nodes generalizing all with
  | nil =>
      cases member
  | cons other rest hypothesis =>
      by_cases first : isTopLevelKind other.kind = true
      · obtain ⟨changes, later, here, found, rfl, -⟩ := surveyTopLevel_cons_eq_ok first surveyed
        rcases List.mem_cons.mp member with rfl | inRest
        · exact ⟨changes, here, List.subset_append_left changes later⟩
        · obtain ⟨given, outcome, inLater⟩ := hypothesis found inRest
          exact ⟨given, outcome, List.subset_append_of_subset_right changes inLater⟩
      · rw [surveyTopLevel, if_neg first] at surveyed
        rcases List.mem_cons.mp member with rfl | inRest
        · exact absurd kind first
        · exact hypothesis surveyed inRest

theorem exists_of_mem_surveyBlock (surveyed : (surveyBlock s current nodes).result = .ok items)
    (member : node ∈ nodes) :
    ∃ changes, (survey s false node).result = .ok changes ∧
      ∀ c ∈ changes, .change c ∈ items := by
  induction nodes generalizing current items with
  | nil =>
      cases member
  | cons other rest hypothesis =>
      obtain ⟨changes, finished, next, later, first, passes, found, rfl, -⟩ :=
        surveyBlock_cons_eq_ok surveyed
      rcases List.mem_cons.mp member with rfl | inRest
      · refine ⟨changes, first, fun c given => List.mem_append_left later ?_⟩
        cases passes with
        | apart different =>
            exact List.mem_append_right _ (List.mem_map_of_mem given)
        | joins silent =>
            rw [silent] at given
            cases given
      · obtain ⟨given, outcome, inLater⟩ := hypothesis found inRest
        exact ⟨given, outcome, fun c isGiven => List.mem_append_right finished (inLater c isGiven)⟩

/-- The children that a surveyed node keeps are surveyed, if the survey goes on to any, and their
changes are changes of the node. -/
theorem exists_of_mem_keptOf (leads : leadsOn info = true)
    (surveyed : (survey s top (.mk info children)).result = .ok all)
    (member : child ∈ keptOf info children) :
    ∃ inner changes, (survey s inner child).result = .ok changes ∧ changes ⊆ all := by
  have done := surveyedAs_of_ok surveyed
  generalize (survey s top (.mk info children)).after = after at done
  cases done with
  | link kind =>
      simp [leadsOn, kind] at leads
  | localized kind =>
      simp [leadsOn, kind] at leads
  | shut _ shut =>
      simp [shut] at leads
  | @flat titles inner kind _ noDirective _ found whole =>
      rw [keptOf_of_ne _ noDirective] at member
      obtain ⟨changes, outcome, part⟩ := exists_of_mem_surveyAll found member
      exact ⟨true, changes, outcome, whole ▸ List.subset_append_of_subset_right titles part⟩
  | block kind found whole =>
      rw [keptOf_of_ne _ (ne_directive_of_block kind)] at member
      obtain ⟨changes, outcome, part⟩ := exists_of_mem_surveyBlock found member
      exact ⟨false, changes, outcome, fun c given => whole ▸ mem_changesOfItems (part c given)⟩
  | directive kind found =>
      rw [keptOf_of_directive _ kind] at member
      obtain ⟨titles, items, -, body, rfl, -⟩ := surveyDirective_eq_ok found
      obtain ⟨changes, outcome, part⟩ := exists_of_mem_surveyBlock body member
      exact ⟨false, changes, outcome, fun c given =>
        List.mem_append_right titles (mem_changesOfItems (part c given))⟩

/-- The children of a label are surveyed, and the directive gives a change for the label. -/
theorem exists_of_labelOf (kind : info.kind = .directive) (labelled : labelOf children = some label)
    (surveyed : (survey s top (.mk info children)).result = .ok all) :
    (∃ inner, (surveyAll s false label.children).result = .ok inner) ∧
      ∃ span, label.span = some span ∧
        labelChange s.source info span (label.children.map (localized s)) ∈ all := by
  have done := surveyedAs_of_ok surveyed
  generalize (survey s top (.mk info children)).after = after at done
  cases done with
  | directive _ found =>
      obtain ⟨titles, items, labels, -, rfl, -⟩ := surveyDirective_eq_ok found
      cases labels with
      | absent unlabelled =>
          rw [unlabelled] at labelled
          cases labelled
      | @label other span inner isLabel placed outcome =>
          cases isLabel.symm.trans labelled
          have after := surveyAll_after (fun child _ => survey_after s child) outcome
          exact ⟨⟨inner, outcome⟩, span, placed, after ▸ List.mem_cons_self⟩
  | link other =>
      simp [kind] at other
  | localized other =>
      simp [kind] at other
  | shut _ shut =>
      simp [leadsOn, kind] at shut
  | flat _ _ noDirective =>
      exact absurd kind noDirective
  | block other =>
      simp [kind] at other

/-- Where the survey of a node succeeds it succeeds for the nodes below that it comes to. What
stays in the tree passes its changes on. -/
theorem Stands.surveyed {fate result : Fate} {target : Node}
    (stands : Stands fate node result target) (reached : result ≠ .ignored)
    (surveyed : (survey s top node).result = .ok all) :
    ∃ inner changes, (survey s inner target).result = .ok changes ∧
      (result = .surveyed → changes ⊆ all) := by
  induction stands generalizing top all with
  | here =>
      exact ⟨top, all, surveyed, fun _ => List.Subset.refl all⟩
  | kept _ leads member _ hypothesis =>
      obtain ⟨inner, changes, outcome, part⟩ := exists_of_mem_keptOf leads surveyed member
      obtain ⟨innermost, given, found, stays⟩ := hypothesis reached outcome
      exact ⟨innermost, given, found, fun kept => List.Subset.trans (stays kept) part⟩
  | label _ kind labelled member further hypothesis =>
      obtain ⟨⟨others, inside⟩, -⟩ := exists_of_labelOf kind labelled surveyed
      obtain ⟨changes, outcome, -⟩ := exists_of_mem_surveyAll inside member
      obtain ⟨innermost, given, found, -⟩ := hypothesis reached outcome
      exact ⟨innermost, given, found, fun kept => absurd kept further.ne_surveyed⟩
  | ignored _ _ further _ =>
      exact absurd further.eq_ignored reached

/-- The address of a link that the survey comes to can be localised. -/
theorem localize_of_survey_link {url : Text} (kind : info.kind = .link)
    (addressed : info.url = some url)
    (surveyed : (survey s top (.mk info children)).result = .ok changes) :
    ∃ address, Url.localize s.locale s.placeholder url = .ok address := by
  have done := surveyedAs_of_ok surveyed
  generalize (survey s top (.mk info children)).after = after at done
  cases done with
  | link _ _ unaddressed =>
      rw [addressed] at unaddressed
      cases unaddressed
  | localized _ _ known found =>
      cases addressed.symm.trans known
      exact ⟨_, found⟩
  | shut other =>
      exact absurd kind other
  | flat other =>
      exact absurd kind other
  | block other =>
      simp [kind] at other
  | directive other =>
      simp [kind] at other

/-! ### Documents -/

theorem StandsIn.surveyed {root target : Node} {fate : Fate} (stands : StandsIn root fate target)
    (reached : fate ≠ .ignored) (surveyed : (surveyDocument s root).result = .ok all) :
    ∃ inner changes, (survey s inner target).result = .ok changes ∧
      (fate = .surveyed → changes ⊆ all) := by
  obtain ⟨node, member, below⟩ := stands
  by_cases kind : isTopLevelKind node.kind = true
  · obtain ⟨changes, outcome, part⟩ := exists_of_mem_surveyTopLevel surveyed member kind
    obtain ⟨inner, given, found, stays⟩ := below.surveyed reached outcome
    exact ⟨inner, given, found, fun kept => List.Subset.trans (stays kept) part⟩
  · rw [if_neg kind] at below
    exact absurd below.eq_ignored reached

/-- What a survey that succeeds leaves of a document. Each top-level node of a kind that may hold
content is as if it had been localised by itself; the others are as they were. Each link that the
survey came to had an address that could be localised, if it had one. For each directive with a
label there is a change with the text of the label, in which the links are localised likewise; the
label is no longer in the tree. -/
theorem surveyDocument_footprint {root : Node}
    (surveyed : (surveyDocument s root).result = .ok changes) :
    (surveyDocument s root).after =
        .mk root.info (root.children.map fun node =>
          if isTopLevelKind node.kind then localized s node else node) ∧
      (∀ link url, ComesTo root link → link.kind = .link → link.info.url = some url →
        ∃ address, Url.localize s.locale s.placeholder url = .ok address) ∧
      ∀ directive label, StandsIn root .surveyed directive → directive.kind = .directive →
        labelOf directive.children = some label →
        ∃ span, label.span = some span ∧
          labelChange s.source directive.info span (label.children.map (localized s)) ∈
            changes := by
  refine ⟨?_, ?_, ?_⟩
  · exact congrArg (Node.mk root.info) (surveyTopLevel_after surveyed)
  · rintro ⟨info, children⟩ url ⟨fate, reached, stands⟩ kind addressed
    obtain ⟨inner, given, found, -⟩ := stands.surveyed reached surveyed
    exact localize_of_survey_link kind addressed found
  · rintro ⟨info, children⟩ label stands kind labelled
    obtain ⟨inner, given, found, part⟩ := stands.surveyed (by simp) surveyed
    obtain ⟨-, span, placed, change⟩ := exists_of_labelOf kind labelled found
    exact ⟨span, placed, part rfl change⟩

/-- A directive with a label, a paragraph and a block quote, each with the same link. The one in
the quote keeps its address. -/
theorem surveyDocument_footprint_label :
    let s : Settings :=
      ⟨Text.ofString ":::a[[b](/en)]\n[b](/en)\n> [b](/en)\n:::", Text.ofString "en",
        Url.defaultPlaceholder⟩
    let block (kind : NodeKind) (start stop : Int) (children : List Node) : Node :=
      .mk { kind, span := some ⟨start, stop⟩ } children
    let link (url : String) (start stop : Int) : Node :=
      .mk { kind := .link, span := some ⟨start, stop⟩, url := some (Text.ofString url) } []
    let flagged : List (Text × Json) := [(Text.ofString "directiveLabel", .bool true)]
    let label : Node :=
      .mk { kind := .paragraph, span := some ⟨4, 14⟩, data := flagged } [link "/en" 5 13]
    let quote := block .blockquote 24 34 [block .paragraph 26 34 [link "/en" 26 34]]
    let directive := block .directive 0 38
      [label, block .paragraph 15 23 [link "/en" 15 23], quote]
    let root := block .root 0 38 [directive]
    ∃ changes, (surveyDocument s root).result = .ok changes ∧
      (surveyDocument s root).after =
        block .root 0 38 [block .directive 0 38
          [block .paragraph 15 23 [link "/%%locale%%" 15 23], quote]] ∧
      labelChange s.source directive.info ⟨4, 14⟩ [link "/%%locale%%" 5 13] ∈ changes := by
  intro s block link flagged label quote directive root
  have success : (surveyDocument s root).result.toOption.isSome = true := by
    cbv
  cases surveyed : (surveyDocument s root).result with
  | error e =>
      rw [surveyed] at success
      cases success
  | ok changes =>
      obtain ⟨after, -, labels⟩ := surveyDocument_footprint surveyed
      have stands : StandsIn root .surveyed directive :=
        ⟨directive, List.mem_singleton_self directive, .here⟩
      obtain ⟨span, placed, change⟩ := labels directive label stands rfl rfl
      cases placed
      have becomes (start stop : Int) :
          localized s (link "/en" start stop) = link "/%%locale%%" start stop := by
        have address : Url.localize s.locale s.placeholder (Text.ofString "/en") =
            .ok (Text.ofString "/%%locale%%") := by
          cbv
        rw [localized_of_shut rfl, localizedInfo]
        simp only [address]
        rfl
      have paragraph : localized s (block .paragraph 15 23 [link "/en" 15 23]) =
          block .paragraph 15 23 [link "/%%locale%%" 15 23] := by
        rw [localized_of_leadsOn rfl, keptOf_of_ne _ (by decide), List.map_singleton, becomes]
      have whole : localized s directive =
          block .directive 0 38 [block .paragraph 15 23 [link "/%%locale%%" 15 23], quote] := by
        rw [localized_of_leadsOn rfl, keptOf_of_directive _ rfl, bodyOf_map_localized]
        change Node.mk _ [localized s (block .paragraph 15 23 [link "/en" 15 23]), quote] = _
        rw [paragraph]
      rw [after]
      refine ⟨changes, rfl, ?_, ?_⟩
      · exact congrArg (fun node => block .root 0 38 [node]) whole
      · rw [← becomes 5 13]
        exact change

end Extract

end MdxLocalization
