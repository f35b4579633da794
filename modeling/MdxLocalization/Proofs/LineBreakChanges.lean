import MdxLocalization.Extract.Document
import MdxLocalization.Proofs.BlockText
import MdxLocalization.Proofs.LineBreakParse
import MdxLocalization.Proofs.LineBreakTitle
import MdxLocalization.Proofs.SurveySuccess

/-!
# The changes of a document do not depend on its kind of line breaks

A document and the same document with carriage returns yield the same changes with moved spans.
Three things are in the way. The region of a paragraph may end behind its last line; a title without
a value takes the carriage return for one; and the address of a link may be read differently when a
backslash stands before a break in it, which matters when one of the addresses cannot be localised.
-/

namespace MdxLocalization.Extract

variable {s : Settings} {source : Text} {root root' : Node}

/-! ### Module references -/

theorem children_of_mirrors {node node' : Node} (mirrors : node.Mirrors source node')
    (kind : ¬ node.kind.isInlineBlock) : MirrorAll source node.children node'.children := by
  cases mirrors with
  | nested own size below =>
      exact List.forall₂_iff_zip.mpr ⟨size, fun member => below _ _ member⟩
  | inline own isInline =>
      exact absurd isInline kind

theorem filter_mirrors (kind : NodeKind) {nodes nodes' : List Node}
    (all : MirrorAll source nodes nodes') :
    MirrorAll source (nodes.filter (·.kind = kind)) (nodes'.filter (·.kind = kind)) := by
  refine List.rel_filter ?_ all
  intro node node' mirrors
  have same : node'.kind = node.kind := mirrors.own.kind
  simp only [same]

theorem declarations_mirror (all : MirrorAll source root.children root'.children) :
    MirrorAll source (declarations root) (declarations root') := by
  unfold declarations
  generalize root.children = nodes, root'.children = nodes' at all
  induction all with
  | nil =>
      exact .nil
  | @cons node node' rest rest' first others hypothesis =>
      have same : node'.kind = node.kind := first.own.kind
      rw [List.filter_cons, List.filter_cons, same]
      by_cases kind : node.kind = .esm
      · have inner := children_of_mirrors first (by simp [NodeKind.isInlineBlock, kind])
        rw [if_pos (decide_eq_true kind), if_pos (decide_eq_true kind), List.flatMap_cons,
          List.flatMap_cons]
        exact List.rel_append (filter_mirrors .importDeclaration inner) hypothesis
      · rw [if_neg (by simp [kind]), if_neg (by simp [kind])]
        exact hypothesis

theorem kind_of_mem_declarations :
    ∀ declaration ∈ declarations root, declaration.kind = .importDeclaration := by
  intro declaration member
  obtain ⟨block, -, inBlock⟩ := List.mem_flatMap.mp member
  simpa using (List.mem_filter.mp inBlock).2

theorem reference?_corresponds {declaration declaration' : Node}
    (mirrors : declaration.Mirrors source declaration')
    (kind : declaration.kind = .importDeclaration) :
    Corresponds s (Option.Rel (Change.Mirrors source))
      (reference? s.locale s.placeholder declaration)
      (reference? s.locale s.placeholder declaration') := by
  have own := mirrors.own
  unfold reference?
  rw [own.literal kind]
  dsimp only
  cases localized : Url.localize s.locale s.placeholder (declaration.info.value.getD []) with
  | error e =>
      exact ⟨_, e, localized⟩
  | ok localized =>
      change Corresponds s _ (if _ then _ else _) (if _ then _ else _)
      split
      · exact .none
      · refine (spanOrFail_corresponds own).bind ?_
        rintro span _ ⟨-, rfl⟩
        exact .some ⟨rfl, rfl, rfl⟩

theorem referencesOf_corresponds {nodes nodes' : List Node}
    (all : MirrorAll source nodes nodes')
    (kinds : ∀ declaration ∈ nodes, declaration.kind = .importDeclaration) :
    Corresponds s (fun found found' => List.Forall₂ (Change.Mirrors source) found.1 found'.1)
      (referencesOf s.locale s.placeholder nodes) (referencesOf s.locale s.placeholder nodes') := by
  induction all with
  | nil =>
      exact .nil
  | @cons node node' rest rest' first others hypothesis =>
      obtain ⟨kind, later⟩ := List.forall_mem_cons.mp kinds
      rw [referencesOf, referencesOf]
      refine (reference?_corresponds (s := s) first kind).bind ?_
      intro change change' rel
      refine (hypothesis later).bind ?_
      rintro ⟨changes, events⟩ ⟨changes', events'⟩ more
      cases rel with
      | none =>
          exact more
      | some same =>
          exact .cons same more

theorem references_corresponds (all : MirrorAll source root.children root'.children) :
    Corresponds s (fun found found' => List.Forall₂ (Change.Mirrors source) found.1 found'.1)
      (references s.locale s.placeholder root) (references s.locale s.placeholder root') := by
  unfold references
  refine (referencesOf_corresponds (declarations_mirror all)
    kind_of_mem_declarations).bind ?_
  rintro ⟨changes, events⟩ ⟨changes', events'⟩ more
  exact more

/-! ### Collecting changes -/

theorem collect_result (s : Settings) (root : Node) :
    (collect s root).result =
      (frontMatterTitle root).mapError .missingPosition >>= fun title =>
        references s.locale s.placeholder root >>= fun found =>
          (surveyDocument s root).result.map (title.changes ++ found.1 ++ ·) := by
  unfold collect
  cases frontMatterTitle root with
  | error e =>
      rfl
  | ok title =>
      cases references s.locale s.placeholder root with
      | error e =>
          rfl
      | ok found =>
          dsimp only
          cases (surveyDocument s root).result <;> rfl

/-- A document that holds no carriage returns, none of whose paragraphs overshoots its lines, and
whose title, if any, has a value, yields the same changes with carriage returns added: as many, in
the same order, with the same kinds and notes, and with moved spans. -/
theorem collect_corresponds {source : Text} (clean : '\r' ∉ source)
    (inLines : ¬ Document.Overshoots source) {root root' : Node}
    (parsed : (Document.parse source).outcome.1 = .ok root)
    (parsed' : (Document.parse (Text.addReturns source)).outcome.1 = .ok root')
    (filled : TitleFilled root) (locale placeholder : Text) :
    Corresponds ⟨source, locale, placeholder⟩ (List.Forall₂ (Change.Mirrors source))
      (collect ⟨source, locale, placeholder⟩ root).result
      (collect ⟨Text.addReturns source, locale, placeholder⟩ root').result := by
  have kind : root.kind = .root := Document.kind_of_parse parsed
  have all := children_of_mirrors (Document.parse_mirrors clean inLines parsed parsed')
    (by simp [NodeKind.isInlineBlock, kind])
  rw [collect_result, collect_result]
  refine (frontMatterTitle_corresponds all filled).bind fun title title' titles => ?_
  refine (references_corresponds all).bind fun found found' imports => ?_
  have content := surveyTopLevel_corresponds (s := ⟨source, locale, placeholder⟩) all
  refine content.map fun changes changes' more => ?_
  exact List.rel_append (List.rel_append titles imports) more

/-- A page of front matter and one paragraph yields the text of the paragraph. -/
theorem surveyDocument_page {start stop : Nat} (filled : start < stop)
    (blocks : root.children.map (fun node => (node.kind, node.span.isSome)) =
      [(.yaml, true), (.paragraph, true)])
    (leaves : root.children.map (fun node =>
        node.children.map fun leaf => (leaf.kind, leaf.span, leaf.children.length)) =
      [[], [(.text, some (.ofNats start stop), 0)]]) :
    ∃ changes, (surveyDocument s root).result = .ok changes ∧
      changes.map Change.span = [.ofNats start stop] := by
  obtain ⟨yaml, others, parts, isYaml, blocks⟩ := List.map_eq_cons_iff.mp blocks
  obtain ⟨⟨info, children⟩, rest, rfl, isParagraph, blocks⟩ := List.map_eq_cons_iff.mp blocks
  obtain rfl := List.map_eq_nil_iff.mp blocks
  rw [parts] at leaves
  obtain ⟨-, leaves⟩ := List.cons.inj leaves
  obtain ⟨⟨leafInfo, below⟩, rest, rfl, leaf, last⟩ :=
    List.map_eq_cons_iff.mp (List.cons.inj leaves).1
  obtain rfl := List.map_eq_nil_iff.mp last
  obtain ⟨isText, leaf⟩ := Prod.mk.inj leaf
  obtain ⟨placed, isLeaf⟩ := Prod.mk.inj leaf
  obtain rfl : below = [] := List.length_eq_zero_iff.mp isLeaf
  obtain ⟨paragraph, located⟩ := Prod.mk.inj isParagraph
  have plain : PlainLeaf (.mk leafInfo []) := .mk (by simp [show leafInfo.kind = .text from isText])
  have tiles : Inline.Tiles start stop [.mk leafInfo []] := ⟨stop, placed, filled, rfl⟩
  have kind : info.kind ∈ [NodeKind.heading, .paragraph, .tableCell] := by
    simp [show info.kind = .paragraph from paragraph]
  have surveyed := survey_block_plain (s := s) kind located filled tiles
    (List.forall_mem_singleton.mpr plain)
  have whole : (surveyDocument s root).result = .ok
      [⟨.content, brokenText s.source [.mk leafInfo []], .ofNats start stop, []⟩] := by
    change (surveyTopLevel s root.children).result = _
    rw [parts, surveyTopLevel, (Prod.mk.inj isYaml).1]
    exact surveyTopLevel_single (by rw [paragraph]; rfl) surveyed
  exact ⟨_, whole, rfl⟩

/-- Front matter with a title and a paragraph of two lines yield two changes with either kind of
line breaks. -/
theorem collect_corresponds_twoLines :
    let source := Text.ofString "---\ntitle: a\nb: c\n---\n\nd\ne"
    let locale := Text.ofString "en"
    let placeholder := Text.ofString "locale"
    '\r' ∉ source ∧ ¬ Document.Overshoots source ∧ ∃ root root',
      (Document.parse source).outcome.1 = .ok root ∧
        (Document.parse (Text.addReturns source)).outcome.1 = .ok root' ∧ TitleFilled root ∧
        ∃ changes changes',
          (collect ⟨source, locale, placeholder⟩ root).result = .ok changes ∧
          (collect ⟨Text.addReturns source, locale, placeholder⟩ root').result = .ok changes' ∧
          List.Forall₂ (Change.Mirrors source) changes changes' ∧
          changes.map Change.span = [⟨11, 12⟩, ⟨23, 26⟩] := by
  intro source locale placeholder
  have clean : '\r' ∉ source := by
    decide +kernel
  have checked : (Document.parseWith Document.Fragment.locateInLines source).outcome.1.isOk =
      true := by
    decide +kernel
  have inLines : ¬ Document.Overshoots source := by
    intro overshoots
    unfold Document.Overshoots at overshoots
    rw [overshoots] at checked
    cases checked
  have read : (Document.parse source).outcome.1.map (fun _ => ()) = .ok () := by
    decide +kernel
  have read' : (Document.parse (Text.addReturns source)).outcome.1.map (fun _ => ()) = .ok () := by
    decide +kernel
  obtain ⟨root, parsed, -⟩ := exists_of_map_eq_ok read
  obtain ⟨root', parsed', -⟩ := exists_of_map_eq_ok read'
  have fact {β : Type} (f : Node → β) (b : β)
      (evaluated : (Document.parse source).outcome.1.map f = .ok b) : f root = b := by
    rw [parsed] at evaluated
    exact Except.ok.inj evaluated
  have filled : TitleFilled root := of_decide_eq_true
    (fact (fun root => decide (TitleFilled root)) true (by decide +kernel))
  have title := fact (fun root => (frontMatterTitle root).map (·.changes.map Change.span))
    (.ok [⟨11, 12⟩]) (by decide +kernel)
  have imports := fact (fun root => (references locale placeholder root).map (·.1.map Change.span))
    (.ok []) (by decide +kernel)
  have blocks := fact (fun root => root.children.map fun node => (node.kind, node.span.isSome))
    [(.yaml, true), (.paragraph, true)] (by decide +kernel)
  have leaves := fact (fun root => root.children.map fun node =>
      node.children.map fun leaf => (leaf.kind, leaf.span, leaf.children.length))
    [[], [(.text, some (.ofNats 23 26), 0)]] (by decide +kernel)
  obtain ⟨front, named, frontSpans⟩ := exists_of_map_eq_ok title
  obtain ⟨moduleChanges, imported, importSpans⟩ := exists_of_map_eq_ok imports
  obtain ⟨content, surveyed, contentSpans⟩ :=
    surveyDocument_page (s := ⟨source, locale, placeholder⟩) (by decide) blocks leaves
  have found : (collect ⟨source, locale, placeholder⟩ root).result =
      .ok (front.changes ++ moduleChanges.1 ++ content) := by
    rw [collect_result, named, imported, surveyed]
    rfl
  have spans : (front.changes ++ moduleChanges.1 ++ content).map Change.span =
      [⟨11, 12⟩, ⟨23, 26⟩] := by
    rw [List.map_append, List.map_append, frontSpans, importSpans, contentSpans]
    rfl
  have alike := collect_corresponds clean inLines parsed parsed' filled locale placeholder
  rw [found] at alike
  refine ⟨clean, inLines, root, root', parsed, parsed', filled,
    front.changes ++ moduleChanges.1 ++ content, ?_⟩
  cases found' : (collect ⟨Text.addReturns source, locale, placeholder⟩ root').result with
  | ok changes' =>
      rw [found'] at alike
      exact ⟨changes', found, rfl, alike, spans⟩
  | error e =>
      rw [found'] at alike
      cases e with
      | missingPosition e =>
          exact alike.elim
      | url e =>
          exact absurd alike (not_refuses_english source)

/-- The changes of a document may depend on its kind of line breaks: where a line of front matter
consists of `title:` alone, the carriage return behind it becomes the title. -/
theorem not_forall_collect_corresponds :
    ¬ ∀ (source locale placeholder : Text) (root root' : Node) (changes changes' : List Change),
      '\r' ∉ source → (Document.parse source).outcome.1 = .ok root →
      (Document.parse (Text.addReturns source)).outcome.1 = .ok root' →
      (collect ⟨source, locale, placeholder⟩ root).result = .ok changes →
      (collect ⟨Text.addReturns source, locale, placeholder⟩ root').result = .ok changes' →
      List.Forall₂ (Change.Mirrors source) changes changes' := by
  intro claim
  let source := Text.ofString "---\ntitle:\nx: y\n---\n"
  let locale := Text.ofString "en"
  let placeholder := Text.ofString "locale"
  have clean : '\r' ∉ source := by
    decide +kernel
  have counted : ((Document.parse source).outcome.1.map fun root =>
      (collect ⟨source, locale, placeholder⟩ root).result.map List.length) = .ok (.ok 0) := by
    decide +kernel
  have counted' : ((Document.parse (Text.addReturns source)).outcome.1.map fun root =>
      (collect ⟨Text.addReturns source, locale, placeholder⟩ root).result.map List.length) =
      .ok (.ok 1) := by
    decide +kernel
  obtain ⟨root, parsed, counted⟩ := exists_of_map_eq_ok counted
  obtain ⟨root', parsed', counted'⟩ := exists_of_map_eq_ok counted'
  obtain ⟨changes, found, none⟩ := exists_of_map_eq_ok counted
  obtain ⟨changes', found', one⟩ := exists_of_map_eq_ok counted'
  have same := (claim _ _ _ _ _ _ _ clean parsed parsed' found found').length_eq
  omega

end MdxLocalization.Extract
