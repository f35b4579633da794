import MdxLocalization.Extract.Document
import MdxLocalization.Patch
import MdxLocalization.Proofs.ChangeOrigins
import MdxLocalization.Proofs.LineBreakChanges
import MdxLocalization.Proofs.LiteralValues
import MdxLocalization.Proofs.NodeEquality
import MdxLocalization.Proofs.Patching

/-!
# Titles stand in the source as they are sent

The text of a title is cut from a value and its span is reckoned beside it: in front matter from the
place of the block, in an attribute from the region of the tag. The two always agree, so that
putting titles back as they are leaves the source as it is.
-/

namespace MdxLocalization

/-- What a change would replace is its own text. -/
def Change.Literal (source : Text) (c : Change) : Prop := c.span.slice source = c.text

namespace Extract

variable {s : Settings} {top : Bool} {info : NodeInfo} {node root : Node} {nodes : List Node}
  {changes : List Change} {c : Change} {source whole line value : Text} {start : Nat}

/-! ### Front matter -/

theorem titleOnLine?_stands (found : titleOnLine? line = some (start, value)) :
    line.StandsAt value start := by
  cases starts : Text.startsWith line (Text.ofString "title:") with
  | false =>
      rw [titleOnLine?_of_not_startsWith starts] at found
      cases found
  | true =>
      obtain ⟨body, rfl⟩ := List.isPrefixOf_iff_prefix.mp starts
      have behind : (Text.ofString "title:" ++ body).StandsAt body 6 :=
        ⟨Text.ofString "title:", [], by simp, rfl⟩
      have lead := Text.countWhile_le_length isTitleBlank body
      rw [titleOnLine?_eq, Text.dropWhile_eq_drop_countWhile] at found
      split at found
      · split at found
        · cases found
        · rename_i blanks
          cases found
          rw [Nat.add_sub_assoc (Nat.one_le_iff_ne_zero.mpr blanks)]
          exact behind.drop (Nat.le_trans (Nat.sub_le _ _) lead)
      · rename_i c rest left
        cases found
        have stands := behind.drop lead
        rw [left] at stands
        obtain ⟨tail, parts, -⟩ :=
          Text.exists_dropped (fun c => isTitleBlank c || c == '\r') rest
        exact stands.of_prefix ((List.prefix_cons_inj c).mpr ⟨tail, parts⟩)

/-- The title among the lines of a block stands in the block. -/
theorem titleInLines?_stands {lines : List Text} {offset : Nat}
    (stands : whole.StandsAt (Text.join ['\n'] lines) offset)
    (found : titleInLines? offset lines = some (start, value)) : whole.StandsAt value start := by
  induction lines generalizing offset with
  | nil =>
      cases found
  | cons line rest hypothesis =>
      have here : whole.StandsAt line offset ∧
          (rest ≠ [] → whole.StandsAt (Text.join ['\n'] rest) (offset + line.length + 1)) := by
        cases rest with
        | nil =>
            exact ⟨stands, fun filled => absurd rfl filled⟩
        | cons next others =>
            rw [Text.join_cons_cons, List.append_assoc] at stands
            exact ⟨stands.left, fun _ => stands.right.right⟩
      rw [titleInLines?] at found
      split at found
      · rename_i n text onLine
        cases found
        obtain ⟨before, after, rfl, placed⟩ := here.1
        obtain ⟨front, behind, rfl, rfl⟩ := titleOnLine?_stands onLine
        exact ⟨before ++ front, behind ++ after, by simp, by rw [List.length_append, placed]⟩
      · cases rest with
        | nil =>
            cases found
        | cons next others =>
            exact hypothesis (here.2 (by simp)) found

/-- Quotes that are taken away stand around what is left. -/
theorem unquote_stands (stands : whole.StandsAt value start) :
    whole.StandsAt (unquote start value).2 (unquote start value).1 := by
  unfold unquote
  split
  · split
    · rename_i quoted
      simp only [Bool.and_eq_true, decide_eq_true_eq] at quoted
      have inner := stands.drop (n := 1) (by omega)
      exact inner.of_prefix (List.dropLast_prefix _)
    · exact stands
  · exact stands

/-- The value of front matter is a part of the source, and its place is recorded. -/
def RecordsPlace (source : Text) (info : NodeInfo) : Prop :=
  info.kind = .yaml → ∃ start stop : Nat, info.value = some (Text.slice source start stop) ∧
    info.dataField? "valueStart" = some (.integer start)

theorem frontMatterTitle_literal {title : FrontMatterTitle}
    (records : ∀ block ∈ root.children, RecordsPlace source block.info)
    (found : frontMatterTitle root = .ok title) : ∀ c ∈ title.changes, c.Literal source := by
  unfold frontMatterTitle at found
  split at found
  · cases found
    exact List.forall_mem_nil _
  · rename_i block isBlock
    have kind : block.kind = .yaml := by
      simpa using List.find?_some isBlock
    obtain ⟨start, stop, isValue, recorded⟩ :=
      records block (List.mem_of_find?_eq_some isBlock) kind
    rw [isValue, recorded, Option.getD_some] at found
    split at found
    · cases found
      exact List.forall_mem_nil _
    · rename_i n text isTitle
      have whole : (Text.slice source start stop).StandsAt
          (Text.join ['\n'] (Text.splitOn '\n' (Text.slice source start stop))) 0 := by
        rw [Text.join_splitOn]
        exact ⟨[], [], by simp, rfl⟩
      have stands := unquote_stands (titleInLines?_stands whole isTitle)
      dsimp only at found
      split at found
      · cases found
        exact List.forall_mem_nil _
      · rename_i filled
        have place := stands.of_slice (by simpa using filled)
        cases placed : block.info.spanOrFail with
        | error e =>
            rw [placed] at found
            cases found
        | ok span =>
            rw [placed] at found
            cases found
            refine List.forall_mem_singleton.mpr ?_
            have selected := place.slice_eq
            rw [← Text.window_eq_slice] at selected
            simpa [Change.Literal, Span.slice] using selected

/-! ### Attributes -/

theorem titleAttribute_literal (literal : ∀ a ∈ info.attributes, a.Literal source) :
    ∀ c ∈ (titleAttribute info).1, c.Literal source := by
  unfold titleAttribute
  dsimp only
  split
  · exact List.forall_mem_nil _
  · rename_i a named
    split
    · exact List.forall_mem_nil _
    · rename_i span valued
      split
      · exact List.forall_mem_nil _
      · exact List.forall_mem_singleton.mpr
          (literal a (List.mem_of_find?_eq_some named) span valued)

/-- A title that the survey of a node gives is that of a title attribute in the node. -/
theorem title_literal_of_survey
    (every : node.Every fun info => ∀ a ∈ info.attributes, a.Literal source)
    (surveyed : (survey s top node).result = .ok changes) (member : c ∈ changes)
    (kind : c.kind = .title) : c.Literal source := by
  induction node using Node.induction generalizing top changes with
  | step info children below =>
      obtain ⟨literal, inner⟩ := every
      have own := titleAttribute_literal literal
      have through {child : Node} {top : Bool} {given : List Change} (isChild : child ∈ children)
          (outcome : (survey s top child).result = .ok given) (inGiven : c ∈ given) :
          c.Literal source :=
        below child isChild (inner child isChild) outcome inGiven
      have written {run : List Node} (from' : WrittenFrom s info children c run) : False := by
        cases from' with
        | content content =>
            rw [content] at kind
            cases kind
        | label label =>
            rw [label] at kind
            cases kind
      have ofBlock {items : List BlockItem} {withStretches : Bool} {notes : Text}
          (leads : leadsOn info = true)
          (found : (surveyBlock s none (keptOf info children)).result = .ok items)
          (isChange : c ∈ changesOfItems withStretches notes items) : c.Literal source := by
        rcases change_of_block leads found isChange with ⟨child, kept, given, outcome, inGiven⟩ |
          ⟨run, from'⟩
        · exact through (mem_of_mem_keptOf kept) outcome inGiven
        · exact (written from').elim
      have done := surveyedAs_of_ok surveyed
      generalize (survey s top (.mk info children)).after = after at done
      cases done with
      | link _ nothing =>
          rw [nothing] at member
          cases member
      | localized _ nothing =>
          rw [nothing] at member
          cases member
      | shut _ _ titles =>
          exact own c (titles member)
      | flat _ _ _ isTitle found whole =>
          rw [whole] at member
          rcases List.mem_append.mp member with title | behind
          · exact own c (isTitle title)
          · obtain ⟨child, isChild, given, outcome, inGiven⟩ :=
              exists_of_change_mem_surveyAll found behind
            exact through isChild outcome inGiven
      | block blockKind found whole =>
          rw [whole] at member
          rw [← keptOf_of_ne children (ne_directive_of_block blockKind)] at found
          exact ofBlock (leadsOn_of_block blockKind) found member
      | directive directive found =>
          obtain ⟨titles, items, labels, body, rfl, -⟩ := surveyDirective_eq_ok found
          rw [← keptOf_of_directive children directive] at body
          rcases List.mem_append.mp member with isLabel | content
          · cases labels with
            | absent =>
                cases isLabel
            | label =>
                rw [List.mem_singleton.mp isLabel] at kind
                cases kind
          · exact ofBlock (by simp [leadsOn, directive]) body content

/-! ### Documents -/

theorem reference?_kind {locale placeholder : Text} {change : Option Change}
    (found : reference? locale placeholder node = .ok change) :
    ∀ c ∈ change, c.kind = .reference := by
  unfold reference? at found
  obtain ⟨address, -, rest⟩ := exists_of_bind_eq_ok found
  split at rest
  · cases rest
    simp
  · obtain ⟨span, -, rest⟩ := exists_of_bind_eq_ok rest
    cases rest
    rintro c ⟨⟩
    rfl

theorem referencesOf_kind {locale placeholder : Text} {events : List LogEvent}
    (found : referencesOf locale placeholder nodes = .ok (changes, events)) :
    ∀ c ∈ changes, c.kind = .reference := by
  induction nodes generalizing changes events with
  | nil =>
      cases found
      exact List.forall_mem_nil _
  | cons node rest hypothesis =>
      rw [referencesOf] at found
      obtain ⟨change, first, found⟩ := exists_of_bind_eq_ok found
      obtain ⟨⟨others, more⟩, behind, found⟩ := exists_of_bind_eq_ok found
      have isReference := reference?_kind first
      cases change with
      | none =>
          cases found
          exact hypothesis behind
      | some change =>
          cases found
          exact List.forall_mem_cons.mpr ⟨isReference change rfl, hypothesis behind⟩

theorem references_kind {locale placeholder : Text} {events : List LogEvent}
    (found : references locale placeholder root = .ok (changes, events)) :
    ∀ c ∈ changes, c.kind = .reference := by
  obtain ⟨⟨listed, others⟩, behind, found⟩ := exists_of_bind_eq_ok found
  cases found
  exact referencesOf_kind behind

/-- Parsing keeps the values of attributes and of front matter as they stand in the source. -/
theorem inherent_literal (source : Text) :
    Document.Inherent source fun info =>
      (∀ a ∈ info.attributes, a.Literal source) ∧ RecordsPlace source info where
  plain info noFrontMatter bare :=
    ⟨by simp [bare], fun kind => absurd kind noFrontMatter⟩
  frontMatter f lines sourceOf := by
    subst sourceOf
    refine ⟨List.forall_mem_nil _, fun _ => ?_⟩
    have recorded : (Document.frontMatterNode f lines).info.dataField? "valueStart" =
        some (.integer (f.lines.start (lines.first + 1))) := rfl
    by_cases short : lines.last < lines.first + 1 + 2
    · -- Without lines between the marks the value is the empty part where they would start.
      refine ⟨_, f.lines.start (lines.first + 1), ?_, recorded⟩
      change some (if _ then _ else _) = _
      rw [if_pos short, Text.slice, Nat.sub_self, List.take_zero]
    · refine ⟨_, f.lines.stop (lines.last - 2), ?_, recorded⟩
      change some (if _ then _ else _) = _
      rw [if_neg short]
  element start stop tag span isTag :=
    ⟨Jsx.readTag?_literal isTag, fun kind => absurd kind (by simp [Document.tagInfo])⟩

/-- The titles among the changes of a parsed document are literal. -/
theorem literal_of_collect (parsed : (Document.parse s.source).outcome.1 = .ok root)
    (collected : (collect s root).result = .ok changes) (member : c ∈ changes)
    (kind : c.kind = .title) : c.Literal s.source := by
  obtain ⟨-, below⟩ := Document.every_of_parse (inherent_literal s.source) parsed
  rw [collect_result] at collected
  obtain ⟨title, inFront, collected⟩ := exists_of_bind_eq_ok collected
  obtain ⟨⟨imports, events⟩, imported, collected⟩ := exists_of_bind_eq_ok collected
  obtain ⟨content, surveyed, rfl⟩ := exists_of_map_eq_ok collected
  simp only [List.mem_append] at member
  rcases member with (isFront | isImport) | isContent
  · refine frontMatterTitle_literal (fun block isChild => ?_) (of_mapError_eq_ok inFront) c isFront
    obtain ⟨⟨-, records⟩, -⟩ := below block isChild
    exact records
  · rw [references_kind imported c isImport] at kind
    cases kind
  · obtain ⟨node, isChild, -, given, outcome, inGiven⟩ :=
      exists_of_change_mem_surveyTopLevel surveyed isContent
    have every := (below node isChild).imp fun info own => own.1
    exact title_literal_of_survey every outcome inGiven kind

end Extract

namespace Patch

/-- Putting a text in as it stands leaves the content as it is. -/
theorem replace_literal {content : Text} {c : Change} (literal : c.Literal content) :
    ∀ result, replace id content c = .ok result → result = content := by
  intro result replaced
  unfold replace at replaced
  split at replaced
  · rename_i fits
    obtain ⟨lower, proper, upper⟩ := fits
    have selected := Text.window_eq_slice content c.span.start.toNat c.span.stop.toNat
    rw [Int.toNat_of_nonneg lower, Int.toNat_of_nonneg (by omega)] at selected
    have text : c.text = Text.slice content c.span.start.toNat c.span.stop.toNat :=
      literal.symm.trans selected
    cases replaced
    rw [id, text, ← Text.slice_zero, Text.slice_append_slice content (Nat.zero_le _) (by omega),
      Text.slice_zero, List.take_append_drop]
  · cases replaced

theorem apply_literal {content result : Text} {changes : List Change}
    (literal : ∀ c ∈ changes, c.Literal content)
    (applied : apply id content changes = .ok result) : result = content := by
  obtain ⟨-, -, applied⟩ := Extract.exists_of_bind_eq_ok applied
  obtain ⟨-, -, applied⟩ := Extract.exists_of_bind_eq_ok applied
  have each : ∀ c ∈ descending changes, c.Literal content := fun c member =>
    literal c ((descending_perm changes).mem_iff.mp member)
  generalize descending changes = ordered at applied each
  induction ordered with
  | nil =>
      cases applied
      rfl
  | cons c rest hypothesis =>
      obtain ⟨first, others⟩ := List.forall_mem_cons.mp each
      rw [List.foldlM_cons] at applied
      obtain ⟨next, replaced, applied⟩ := Extract.exists_of_bind_eq_ok applied
      rw [replace_literal first next replaced] at applied
      exact hypothesis applied others

end Patch

namespace Extract

/-- Whatever the source, if collecting its changes succeeds, then every title among them, from front
matter or from an attribute at any depth, is sent as its span has it in the source. So putting the
titles back leaves the source as it is, if patching accepts them. -/
theorem titles_literal {s : Settings} {root : Node} {changes : List Change}
    (parsed : (Document.parse s.source).outcome.1 = .ok root)
    (collected : (collect s root).result = .ok changes) :
    (∀ c ∈ changes, c.kind = .title → c.span.slice s.source = c.text) ∧
      ∀ result, Patch.apply (Patch.textTransform false) s.source
          (changes.filter (·.kind = .title)) = .ok result →
        result = s.source := by
  refine ⟨fun c member kind => literal_of_collect parsed collected member kind, ?_⟩
  intro result applied
  refine Patch.apply_literal (fun c member => ?_) applied
  obtain ⟨isChange, kind⟩ := List.mem_filter.mp member
  exact literal_of_collect parsed collected isChange (by simpa using kind)

/-- Front matter with a quoted title and a carriage return, and two elements with titles, one in a
fragment of the other. -/
def titledPage : Settings where
  source := Text.ofString
    ("---\r\ntitle: 'A'\t\n---\n<AccordionItem title=\"T\">\n" ++
      "<RelativeLink title='x'/>\n</AccordionItem>")
  locale := Text.ofString "en"
  placeholder := Text.ofString "locale"

def titledTree : Node :=
  let title (value : String) (start stop first last : Nat) : JsxAttribute :=
    ⟨Text.ofString "title", Text.ofString value, some (.ofNats start stop),
      some (.ofNats first last)⟩
  let element (name : String) (a : JsxAttribute) (start stop : Nat) (children : List Node) : Node :=
    .mk { kind := .jsxElement, name := some (Text.ofString name), attributes := [a],
          span := some (.ofNats start stop) } children
  .mk { kind := .root, span := some (.ofNats 0 89) }
    [.mk { kind := .yaml, value := some (Text.ofString "title: 'A'\t"),
           data := [(Text.ofString "valueStart", .integer 5)], span := some (.ofNats 0 20) } [],
      element "AccordionItem" (title "T" 36 45 43 44) 21 89
        [element "RelativeLink" (title "x" 61 70 68 69) 47 72 []]]

theorem titles_literal_titledPage :
    (Document.parse titledPage.source).outcome.1 = .ok titledTree ∧
      ∃ changes, (collect titledPage titledTree).result = .ok changes ∧
        changes.map (fun c => (c.kind, c.span)) =
          [(.title, ⟨13, 14⟩), (.title, ⟨43, 44⟩), (.title, ⟨68, 69⟩)] ∧
        (∀ c ∈ changes, c.kind = .title → c.span.slice titledPage.source = c.text) ∧
        ∀ result, Patch.apply (Patch.textTransform false) titledPage.source
            (changes.filter (·.kind = .title)) = .ok result →
          result = titledPage.source := by
  have parsed : (Document.parse titledPage.source).outcome.1 = .ok titledTree := by
    decide +kernel
  have front : frontMatterTitle titledTree =
      .ok (.title ⟨.title, ['A'], ⟨13, 14⟩, Text.ofString "title for document"⟩) := rfl
  have noImports : declarations titledTree = [] := rfl
  have surveyed : (surveyDocument titledPage titledTree).result = .ok
      [⟨.title, ['T'], ⟨43, 44⟩, Text.ofString "'title' attribute for AccordionItem"⟩,
        ⟨.title, ['x'], ⟨68, 69⟩, Text.ofString "'title' attribute for RelativeLink"⟩] := by
    have other : Text.ofString "AccordionItem" ≠ Text.ofString "RelativeLink" := by decide
    simp [surveyDocument, titledTree, surveyTopLevel, isTopLevelKind, Node.children, Node.kind,
      Node.info, survey, surveyAll, mayHoldContent, other, titleAttribute,
      NodeInfo.attributeNamed?, Except.map]
    decide
  have collected : (collect titledPage titledTree).result = .ok
      [⟨.title, ['A'], ⟨13, 14⟩, Text.ofString "title for document"⟩,
        ⟨.title, ['T'], ⟨43, 44⟩, Text.ofString "'title' attribute for AccordionItem"⟩,
        ⟨.title, ['x'], ⟨68, 69⟩, Text.ofString "'title' attribute for RelativeLink"⟩] := by
    rw [collect_result, front, references, noImports, surveyed]
    rfl
  exact ⟨parsed, _, collected, rfl, titles_literal parsed collected⟩

end Extract

end MdxLocalization
