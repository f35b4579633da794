import MdxLocalization.Proofs.ChangeOrigins
import MdxLocalization.Proofs.NodeSites

/-!
# Links in surveyed trees

A survey keeps what a tree has of order: its nodes nest afterwards as they did before. So the span
of a link leads to the link also then, and to the nodes that a change with this span is written
from. And a link has one fate: either the survey comes to it, and then it is rewritten where it
stands, or it is the same afterwards.
-/

namespace MdxLocalization.Extract

variable {s : Settings} {top : Bool} {info : NodeInfo} {node child target parent : Node}
  {children label run : List Node} {all : List Change} {c : Change} {span outer inner : Span}
  {fate result : Fate}

/-! ### The tree afterwards -/

theorem exists_eq_append_keptOf (info : NodeInfo) (children : List Node) :
    ∃ dropped, children = dropped ++ keptOf info children := by
  by_cases directive : info.kind = .directive
  · rw [keptOf_of_directive _ directive]
    cases children with
    | nil =>
        exact ⟨[], rfl⟩
    | cons first rest =>
        rw [bodyOf]
        split_ifs
        · exact ⟨[first], rfl⟩
        · exact ⟨[], rfl⟩
  · rw [keptOf_of_ne _ directive]
    exact ⟨[], rfl⟩

theorem nests_localized (nests : node.Nests) : (localized s node).Nests := by
  induction nests with
  | @mk info children proper inside inOrder below hypothesis =>
      by_cases leads : leadsOn info = true
      · rw [localized_of_leadsOn leads, keptOf_map_localized]
        refine .mk proper ?_ ?_ ?_
        · intro outer known child member inner placed
          obtain ⟨kept, isKept, rfl⟩ := List.mem_map.mp member
          rw [localized_span] at placed
          exact inside outer known kept (mem_of_mem_keptOf isKept) inner placed
        · obtain ⟨dropped, whole⟩ := exists_eq_append_keptOf info children
          rw [whole] at inOrder
          refine List.pairwise_map.mpr ((List.pairwise_append.mp inOrder).2.1.imp ?_)
          intro first second before
          rwa [Node.Before, localized_span, localized_span]
        · exact List.forall_mem_map.mpr fun child member =>
            hypothesis child (mem_of_mem_keptOf member)
      · rw [localized_of_shut (by simpa using leads)]
        obtain ⟨url, same, -⟩ := exists_localizedInfo_eq s info
        rw [same]
        exact .mk proper inside inOrder below

theorem anchored_localized (anchored : node.Anchored) : (localized s node).Anchored := by
  induction anchored with
  | @mk info children placed link label below hypothesis =>
      by_cases leads : leadsOn info = true
      · rw [localized_of_leadsOn leads, keptOf_map_localized]
        refine .mk (fun filled => ?_) link ?_ ?_
        · obtain ⟨child, member⟩ := List.exists_mem_of_ne_nil _ filled
          obtain ⟨kept, isKept, -⟩ := List.mem_map.mp member
          exact placed (List.ne_nil_of_mem (mem_of_mem_keptOf isKept))
        · intro flagged
          refine List.forall_mem_map.mpr fun child member => ?_
          rw [localized_kind]
          exact label flagged child (mem_of_mem_keptOf member)
        · exact List.forall_mem_map.mpr fun child member =>
            hypothesis child (mem_of_mem_keptOf member)
      · rw [localized_of_shut (by simpa using leads)]
        obtain ⟨url, same, address⟩ := exists_localizedInfo_eq s info
        rw [same]
        exact .mk placed (fun kind => ⟨address ▸ (link kind).1, (link kind).2⟩) label below

/-! ### The nodes that cover a link -/

theorem flag_of_labelOf {label : Node} (labelled : labelOf children = some label) :
    label ∈ children ∧ label.info.flag "directiveLabel" = true := by
  obtain ⟨isHead, flagged⟩ := Option.filter_eq_some_iff.mp labelled
  exact ⟨List.mem_of_head? isHead, flagged⟩

theorem Stands.holds (stands : Stands fate node result target) : node.Holds target := by
  induction stands with
  | here =>
      exact .here
  | kept _ _ member _ hypothesis =>
      exact .inside (mem_of_mem_keptOf member) hypothesis
  | @label _ _ _ _ label _ _ _ _ labelled member _ hypothesis =>
      obtain ⟨info, inner⟩ := label
      exact .inside (flag_of_labelOf labelled).1 (.inside member hypothesis)
  | ignored _ member _ hypothesis =>
      exact .inside member hypothesis

theorem Stands.trans {middle : Fate} {between : Node} (first : Stands fate node middle between)
    (second : Stands middle between result target) : Stands fate node result target := by
  induction first with
  | here =>
      exact second
  | kept reached leads member _ hypothesis =>
      exact .kept reached leads member (hypothesis second)
  | label reached kind labelled member _ hypothesis =>
      exact .label reached kind labelled member (hypothesis second)
  | ignored shut member _ hypothesis =>
      exact .ignored shut member (hypothesis second)

/-- What covers a part of a run of siblings is one of them. -/
theorem mem_run_of_covers {before after : List Node}
    (inOrder : (before ++ run ++ after).Pairwise Node.Before)
    (range : contentSpan run = some outer) (covered : outer.Covers inner)
    (filled : inner.start < inner.stop) (member : child ∈ before ++ run ++ after)
    (placed : child.span = some span) (covers : span.Covers inner) : child ∈ run := by
  simp only [contentSpan, Option.bind_eq_bind, Option.bind_eq_some_iff, Option.pure_def,
    Option.some.injEq] at range
  obtain ⟨first, ⟨head, isHead, headPlaced⟩, last, ⟨final, isLast, finalPlaced⟩, rfl⟩ := range
  obtain ⟨left, -, behind⟩ := List.pairwise_append.mp inOrder
  obtain ⟨-, -, ahead⟩ := List.pairwise_append.mp left
  obtain ⟨start, stop⟩ := covered
  obtain ⟨childStart, childStop⟩ := covers
  dsimp only at start stop
  rcases List.mem_append.mp member with inLeft | isAfter
  · rcases List.mem_append.mp inLeft with isBefore | inRun
    · have := ahead child isBefore head (List.mem_of_head? isHead) span placed first headPlaced
      omega
    · exact inRun
  · have := behind final (List.mem_append_right before (List.mem_of_getLast? isLast)) child isAfter
      last finalPlaced span placed
    omega

theorem WrittenFrom.leads (written : WrittenFrom s info children c run) : leadsOn info = true := by
  cases written with
  | content _ leads =>
      exact leads
  | label _ directive =>
      simp [leadsOn, directive]

theorem ne_link_of_leadsOn (leads : leadsOn info = true) : info.kind ≠ .link := by
  intro link
  simp [leadsOn, link] at leads

/-- The node from which a change is written covers the change. -/
theorem WrittenFrom.covers (written : WrittenFrom s info children c run)
    (nests : (Node.mk info children).Nests) (anchored : (Node.mk info children).Anchored) :
    ∃ span, info.span = some span ∧ span.Covers c.span := by
  have around {child : Node} {inner : Span} (member : child ∈ children)
      (placed : child.span = some inner) : ∃ span, info.span = some span ∧ span.Covers inner :=
    (Node.Holds.inside member .here).covers nests anchored placed
  cases written with
  | @content front run back _ _ among silent range =>
      simp only [contentSpan, Option.bind_eq_bind, Option.bind_eq_some_iff, Option.pure_def,
        Option.some.injEq] at range
      obtain ⟨first, ⟨head, isHead, headPlaced⟩, last, ⟨final, isLast, finalPlaced⟩, same⟩ := range
      have inChildren {node : Node} (inRun : node ∈ run) : node ∈ children := by
        have kept : node ∈ keptOf info children := by
          rw [among]
          exact List.mem_append_left back (List.mem_append_right front inRun)
        exact mem_of_mem_keptOf kept
      obtain ⟨span, placed, covers⟩ := around (inChildren (List.mem_of_head? isHead)) headPlaced
      obtain ⟨other, known, otherCovers⟩ :=
        around (inChildren (List.mem_of_getLast? isLast)) finalPlaced
      cases placed.symm.trans known
      exact ⟨span, placed, same ▸ ⟨covers.1, otherCovers.2⟩⟩
  | @label label inner _ _ _ labelled _ placed range =>
      obtain ⟨span, known, start, stop⟩ := around (flag_of_labelOf labelled).1 placed
      refine ⟨span, known, ?_⟩
      rw [range]
      constructor <;> dsimp only <;> omega

/-- A link that a change covers stands in the nodes that the change is written from, if it stands in
the node around these. -/
theorem WrittenFrom.exists_holds (written : WrittenFrom s info children c run)
    (nests : (Node.mk info children).Nests) (anchored : (Node.mk info children).Anchored)
    (holds : (Node.mk info children).Holds target) (link : target.kind = .link)
    (placed : target.span = some span) (filled : span.start < span.stop)
    (covered : c.span.Covers span) : ∃ child ∈ run, child.Holds target := by
  cases holds with
  | here =>
      exact absurd link (ne_link_of_leadsOn written.leads)
  | @inside _ _ child _ member further =>
      obtain ⟨own, known, covers⟩ :=
        further.covers (nests.of_mem member) (anchored.of_mem member) placed
      obtain ⟨-, -, inOrder, -⟩ := nests
      cases written with
      | @content front run back _ _ among silent range =>
          obtain ⟨dropped, whole⟩ := exists_eq_append_keptOf info children
          have cut : children = dropped ++ front ++ run ++ back := by
            rw [among] at whole
            rw [whole]
            simp only [List.append_assoc]
          rw [cut] at inOrder member
          exact ⟨child, mem_run_of_covers inOrder range covered filled member known covers,
            further⟩
      | @label label bracketed _ _ _ labelled _ labelPlaced range =>
          rw [range] at covered
          have labelCovers : bracketed.Covers span := by
            obtain ⟨start, stop⟩ := covered
            constructor <;> dsimp only at start stop <;> omega
          have same := eq_of_covers inOrder member (flag_of_labelOf labelled).1 known labelPlaced
            filled covers labelCovers
          subst same
          cases further with
          | here =>
              -- The brackets of the label are not part of the change.
              cases placed.symm.trans labelPlaced
              have := covered.1
              dsimp only at this
              omega
          | inside below further =>
              exact ⟨_, below, further⟩

/-- A link in a tree stands in each surveyed node of the tree that covers it. -/
theorem Stands.holds_of_covers (stands : Stands fate node result parent)
    (kept : result = .surveyed) (nests : node.Nests) (anchored : node.Anchored)
    (holds : node.Holds target) (link : target.kind = .link) (placed : target.span = some inner)
    (filled : inner.start < inner.stop) (parentPlaced : parent.span = some outer)
    (covers : outer.Covers inner) : parent.Holds target := by
  induction stands with
  | here =>
      exact holds
  | kept _ leads member further hypothesis =>
      cases holds with
      | here =>
          exact absurd link (ne_link_of_leadsOn leads)
      | inside isOther further' =>
          have isChild := mem_of_mem_keptOf member
          have same := eq_of_holds nests (fun _ => anchored.of_mem) isOther isChild further'
            further.holds placed parentPlaced covers filled
          exact hypothesis kept (nests.of_mem isChild) (anchored.of_mem isChild)
            (same ▸ further') parentPlaced
  | label _ _ _ _ further =>
      exact absurd kept further.ne_surveyed
  | ignored _ _ further =>
      rw [further.eq_ignored] at kept
      cases kept

/-! ### Links in surveyed nodes -/

/-- Below a node that the survey does not come to it does not come to any. -/
theorem stands_ignored (holds : node.Holds target) : Stands .ignored node .ignored target := by
  induction holds with
  | here =>
      exact .here
  | inside member _ hypothesis =>
      exact .ignored (.inl rfl) member hypothesis

theorem keptOf_of_unlabelled (unlabelled : info.kind = .directive → labelOf children = none) :
    keptOf info children = children := by
  by_cases directive : info.kind = .directive
  · rw [keptOf_of_directive _ directive]
    cases children with
    | nil =>
        rfl
    | cons first rest =>
        have noFlag : ¬ first.info.flag "directiveLabel" = true := by
          intro flagged
          have labelled : labelOf (first :: rest) = some first := Option.filter_some_pos flagged
          rw [unlabelled directive] at labelled
          cases labelled
        rw [bodyOf, if_neg noFlag]
  · exact keptOf_of_ne _ directive

theorem eq_cons_bodyOf_of_labelOf {label : Node} (labelled : labelOf children = some label) :
    children = label :: bodyOf children := by
  cases children with
  | nil =>
      cases labelled
  | cons first rest =>
      obtain ⟨isHead, flagged⟩ := Option.filter_eq_some_iff.mp labelled
      cases isHead
      rw [bodyOf, if_pos flagged]

/-- The label of a directive and a node of its body do not both hold a node with a span. -/
theorem not_holds_of_labelOf {label : Node} (directive : info.kind = .directive)
    (labelled : labelOf children = some label) (kept : child ∈ keptOf info children)
    (nests : (Node.mk info children).Nests) (anchored : (Node.mk info children).Anchored)
    (placed : target.span = some span) (filled : span.start < span.stop)
    (inLabel : label.Holds target) : ¬ child.Holds target := by
  intro inChild
  have isLabel := (flag_of_labelOf labelled).1
  have isChild := mem_of_mem_keptOf kept
  obtain ⟨s, labelPlaced, first⟩ :=
    inLabel.covers (nests.of_mem isLabel) (anchored.of_mem isLabel) placed
  obtain ⟨t, childPlaced, second⟩ :=
    inChild.covers (nests.of_mem isChild) (anchored.of_mem isChild) placed
  rw [keptOf_of_directive _ directive] at kept
  obtain ⟨-, -, inOrder, -⟩ := nests
  rw [eq_cons_bodyOf_of_labelOf labelled] at inOrder
  have before := (List.pairwise_cons.mp inOrder).1 child kept s labelPlaced t childPlaced
  have := first.2
  have := second.1
  omega

/-- A link stands in a tree with one fate only. -/
theorem Stands.fate_eq {other : Fate} (first : Stands fate node result target)
    (second : Stands fate node other target) (nests : node.Nests) (anchored : node.Anchored)
    (link : target.kind = .link) (placed : target.span = some span)
    (filled : span.start < span.stop) : result = other := by
  induction first with
  | here =>
      cases second with
      | here =>
          rfl
      | kept _ leads =>
          exact absurd link (ne_link_of_leadsOn leads)
      | label _ directive =>
          exact absurd (directive.symm.trans link) (by simp)
      | ignored _ member further =>
          exact absurd further.holds (Node.not_holds_of_mem member)
  | kept reached leads member further hypothesis =>
      have isChild := mem_of_mem_keptOf member
      cases second with
      | here =>
          exact absurd link (ne_link_of_leadsOn leads)
      | kept _ _ member' further' =>
          have same := eq_of_holds nests (fun _ => anchored.of_mem) isChild
            (mem_of_mem_keptOf member') further.holds further'.holds placed placed (.refl span)
            filled
          exact hypothesis (same ▸ further') (nests.of_mem isChild) (anchored.of_mem isChild) link
            placed
      | @label _ _ _ _ label _ _ _ directive labelled member' further' =>
          obtain ⟨labelInfo, inner⟩ := label
          exact absurd further.holds (not_holds_of_labelOf directive labelled member nests anchored
            placed filled (.inside member' further'.holds))
      | ignored shut =>
          simp [reached, leads] at shut
  | @label _ _ outer _ label _ _ reached directive labelled member further hypothesis =>
      have leads : leadsOn outer = true := by
        simp only [leadsOn, directive]
      have isLabel := (flag_of_labelOf labelled).1
      cases second with
      | here =>
          exact absurd (directive.symm.trans link) (by simp)
      | kept _ _ member' further' =>
          obtain ⟨labelInfo, inner⟩ := label
          exact absurd further'.holds (not_holds_of_labelOf directive labelled member' nests
            anchored placed filled (.inside member further.holds))
      | label _ _ labelled' member' further' =>
          cases labelled.symm.trans labelled'
          have labelNests := nests.of_mem isLabel
          have labelAnchored := anchored.of_mem isLabel
          have same := eq_of_holds labelNests (fun _ => labelAnchored.of_mem) member member'
            further.holds further'.holds placed placed (.refl span) filled
          exact hypothesis (same ▸ further') (labelNests.of_mem member)
            (labelAnchored.of_mem member) link placed
      | ignored shut =>
          simp [reached, leads] at shut
  | ignored shut member further hypothesis =>
      cases second with
      | here =>
          exact absurd further.holds (Node.not_holds_of_mem member)
      | kept reached leads =>
          simp [reached, leads] at shut
      | label reached directive =>
          simp [reached, leadsOn, directive] at shut
      | ignored _ member' further' =>
          have same := eq_of_holds nests (fun _ => anchored.of_mem) member member' further.holds
            further'.holds placed placed (.refl span) filled
          exact hypothesis (same ▸ further') (nests.of_mem member) (anchored.of_mem member) link
            placed

theorem StandsIn.fate_eq {root : Node} {other : Fate} (first : StandsIn root fate target)
    (second : StandsIn root other target) (nests : root.Nests)
    (anchored : ∀ node ∈ root.children, node.Anchored) (link : target.kind = .link)
    (placed : target.span = some span) (filled : span.start < span.stop) : fate = other := by
  obtain ⟨child, isChild, stands⟩ := first
  obtain ⟨sibling, isSibling, stands'⟩ := second
  have same := eq_of_holds nests anchored isChild isSibling stands.holds stands'.holds placed placed
    (.refl span) filled
  subst same
  exact stands.fate_eq stands' (nests.of_mem isChild) (anchored child isChild) link placed filled

/-- In a surveyed node that gives no change for a label, a link keeps its place. It is rewritten if
the survey comes to it, and otherwise stays as it is. -/
theorem exists_site_localized (holds : node.Holds (.mk info label)) (link : info.kind = .link)
    (reached : fate ≠ .ignored) (surveyed : (survey s top node).result = .ok all)
    (unlabelled : ∀ c ∈ all, c.kind ≠ .directiveLabel) :
    ∃ result, Stands fate node result (.mk info label) ∧
      ∃ site : Site, localized s node =
        site.fill (.mk (if result = .ignored then info else localizedInfo s info) label) := by
  generalize whole : Node.mk info label = target at holds
  induction holds generalizing top all with
  | here =>
      subst whole
      refine ⟨fate, .here, .here, ?_⟩
      rw [if_neg reached, localized_of_shut (by simp [leadsOn, link])]
      rfl
  | @inside outer children child target member further hypothesis =>
      subst whole
      by_cases leads : leadsOn outer = true
      · have noLabel : outer.kind = .directive → labelOf children = none := by
          intro directive
          cases labelled : labelOf children with
          | none =>
              rfl
          | some label =>
              obtain ⟨-, span, -, given⟩ := exists_of_labelOf directive labelled surveyed
              exact absurd rfl (unlabelled _ given)
        have kept : child ∈ keptOf outer children := by
          rw [keptOf_of_unlabelled noLabel]
          exact member
        obtain ⟨inside, given, outcome, part⟩ := exists_of_mem_keptOf leads surveyed kept
        obtain ⟨result, stands, site, filled⟩ :=
          hypothesis outcome (fun c isGiven => unlabelled c (part isGiven)) rfl
        obtain ⟨before, after, cut⟩ := List.append_of_mem kept
        refine ⟨result, .kept reached leads kept stands,
          .inside outer (before.map (localized s)) site (after.map (localized s)), ?_⟩
        rw [localized_of_leadsOn leads, keptOf_map_localized, cut, List.map_append, List.map_cons,
          filled, Site.fill_inside]
      · have shut : leadsOn outer = false := by simpa using leads
        obtain ⟨before, after, cut⟩ := List.append_of_mem member
        obtain ⟨site, filled⟩ := further.exists_site
        refine ⟨.ignored, .ignored (.inr shut) member (stands_ignored further),
          .inside (localizedInfo s outer) before site after, ?_⟩
        rw [localized_of_shut shut, if_pos rfl, Site.fill_inside, filled, cut]

/-- Inline nodes give no change for a label. -/
theorem no_label_of_inline (kind : node.kind ∈ NodeKind.inlineKinds)
    (surveyed : (survey s top node).result = .ok all) : ∀ c ∈ all, c.kind ≠ .directiveLabel := by
  obtain ⟨info, children⟩ := node
  have noLead : leadsOn info = false := by
    change info.kind ∈ _ at kind
    simp only [NodeKind.inlineKinds, List.mem_cons, List.not_mem_nil, or_false] at kind
    rcases kind with kind | kind | kind | kind <;> simp [leadsOn, kind]
  have done := surveyedAs_of_ok surveyed
  generalize (survey s top (.mk info children)).after = after at done
  cases done with
  | link _ nothing =>
      simp [nothing]
  | localized _ nothing =>
      simp [nothing]
  | shut _ _ titles =>
      intro c member
      simp [titleAttribute_kind (titles member)]
  | flat _ leads =>
      simp [leads] at noLead
  | block block =>
      simp [leadsOn_of_block block] at noLead
  | directive directive =>
      simp [leadsOn, directive] at noLead

end MdxLocalization.Extract
