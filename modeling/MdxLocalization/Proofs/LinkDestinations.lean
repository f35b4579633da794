import MdxLocalization.Proofs.BlockText
import MdxLocalization.Proofs.LinkFates
import MdxLocalization.Proofs.NodeEquality
import MdxLocalization.Proofs.ParseNesting

/-!
# The destinations of links in changes

Blocks are read after their links have been rewritten, so the address of a link in the text of a
change is what the survey made of it. But a block is written with everything in it, also with what
the survey does not come to: block quotes, elements that it does not know, the labels of links. A
link there is sent with the address that it has in the source.
-/

namespace MdxLocalization

namespace Text

/-- A line break at the end of a text is not one of the characters before the last other one. -/
theorem dropLineBreak_append_cons (t rest : Text) {c : Char} (noFeed : c ≠ '\n')
    (noReturn : c ≠ '\r') : dropLineBreak (t ++ c :: rest) = t ++ c :: dropLineBreak rest := by
  obtain ⟨back, rfl⟩ : ∃ back : Text, rest = back.reverse := ⟨rest.reverse, by simp⟩
  have turned : (t ++ c :: back.reverse).reverse = back ++ c :: t.reverse := by
    simp
  unfold dropLineBreak
  rw [turned, List.reverse_reverse]
  rcases back with _ | ⟨d, _ | ⟨e, back⟩⟩
  · simp [noFeed]
  · by_cases feed : d = '\n' <;> simp [feed, noReturn]
  · by_cases feed : d = '\n' <;> by_cases carriage : e = '\r' <;> simp [feed, carriage]

end Text

namespace Extract

open Inline (sourceTexts_append sourceTexts_cons)

variable {s : Settings} {info : NodeInfo} {child : Node} {children label run : List Node}
  {changes : List Change} {c : Change} {span : Span} {source : Text}

/-! ### The text around a link -/

theorem exists_linkText_eq_concat (info : NodeInfo) (label : Text) :
    ∃ front, linkText info label = front ++ [')'] :=
  ⟨_, rfl⟩

/-- The line break that is dropped from the text of a child never belongs to a link. -/
theorem dropLineBreak_append_linkText (front back : Text) (info : NodeInfo) (label : Text) :
    Text.dropLineBreak (front ++ linkText info label ++ back) =
      front ++ linkText info label ++ Text.dropLineBreak back := by
  obtain ⟨inner, ends⟩ := exists_linkText_eq_concat info label
  have dropped := Text.dropLineBreak_append_cons (front ++ inner) back
    (show ')' ≠ '\n' by decide) (show ')' ≠ '\r' by decide)
  rw [ends]
  simpa using dropped

theorem childText_eq (node : Node) :
    childText source node =
      (if node.kind = .code then ['\n'] else []) ++
        Text.dropLineBreak (sourceText source node) := by
  unfold childText
  split_ifs <;> rfl

/-- What is written around a link in the text of a change does not depend on its destination. -/
theorem exists_writtenText_fill_eq (source : Text) (kind : ChangeKind) (site : Site)
    (front back : List Node) (link : info.kind = .link) (placed : info.span = some span)
    (nests : (site.fill (.mk info label)).Nests)
    (anchored : (site.fill (.mk info label)).Anchored) :
    ∃ before after, ∀ address,
      writtenText source kind
          (front ++ site.fill (.mk { info with url := some address } label) :: back) =
        before ++ linkText { info with url := some address } (sourceTexts source label) ++
          after := by
  have known (url : Option Text) : (Node.mk { info with url } label).span = some span := placed
  obtain ⟨start, rest, around⟩ :=
    exists_sourceText_fill_eq source site (known info.url) nests anchored
  have still (url : Option Text) : ({ info with url } : NodeInfo).kind = .link := link
  have spelled (address : Text) :
      sourceText source (site.fill (.mk { info with url := some address } label)) =
        start ++ linkText { info with url := some address } (sourceTexts source label) ++ rest := by
    rw [around _ (known address), sourceText_of_link (still address)]
  have fixed (address : Text) : (site.fill (.mk { info with url := some address } label)).kind =
      (site.fill (.mk info label)).kind := by
    cases site <;> rfl
  cases kind with
  | directiveLabel =>
      refine ⟨sourceTexts source front ++ start,
        Text.dropLineBreak (rest ++ sourceTexts source back), fun address => ?_⟩
      rw [writtenText, sourceTexts_append, sourceTexts_cons, spelled,
        ← dropLineBreak_append_linkText]
      simp only [List.append_assoc]
  | _ =>
      refine ⟨front.flatMap (childText source) ++
        (if (site.fill (.mk info label)).kind = .code then ['\n'] else []) ++ start,
        Text.dropLineBreak rest ++ back.flatMap (childText source), fun address => ?_⟩
      rw [writtenText, List.flatMap_append, List.flatMap_cons, childText_eq, spelled, fixed,
        dropLineBreak_append_linkText]
      · simp only [List.append_assoc]
      · simp

/-! ### Destinations -/

/-- The text of a change has a link with a destination. Among the nodes that the change is written
from, as they are after the survey, the link stands with this destination; and with any other
destination the text would have the other one in the same place. -/
def Sends (s : Settings) (root : Node) (c : Change) (info : NodeInfo) (label : List Node)
    (destination : Text) : Prop :=
  ∃ parent children run front site back before after,
    StandsIn root .surveyed (.mk parent children) ∧ WrittenFrom s parent children c run ∧
      run.map (localized s) =
        front ++ Site.fill site (.mk { info with url := some destination } label) :: back ∧
      ∀ address,
        writtenText s.source c.kind
            (front ++ site.fill (.mk { info with url := some address } label) :: back) =
          before ++ linkText { info with url := some address } (sourceTexts s.source label) ++ after

theorem WrittenFrom.text (written : WrittenFrom s info children c run) :
    c.text = writtenText s.source c.kind (run.map (localized s)) := by
  cases written with
  | content _ _ _ _ _ text =>
      exact text
  | label _ _ _ _ _ _ text =>
      exact text

theorem Sends.text {root : Node} {destination : Text}
    (sends : Sends s root c info label destination) :
    ∃ before after, c.text =
      before ++ linkText { info with url := some destination } (sourceTexts s.source label) ++
        after := by
  obtain ⟨parent, children, run, front, site, back, before, after, -, written, found, around⟩ :=
    sends
  exact ⟨before, after, by rw [written.text, found, around]⟩

/-- The nodes that a change is written from are surveyed, and so is what stands in them. -/
theorem WrittenFrom.survey_of_mem (written : WrittenFrom s info children c run)
    (anchored : (Node.mk info children).Anchored) (member : child ∈ run) :
    (Node.mk info children).Holds child ∧
      ∃ fate, fate ≠ .ignored ∧ Stands .surveyed (.mk info children) fate child ∧
        ∃ given, (survey s false child).result = .ok given ∧
          ∀ c ∈ given, c.kind ≠ .directiveLabel := by
  cases written with
  | @content front run back _ leads among silent =>
      have kept : child ∈ keptOf info children := by
        rw [among]
        exact List.mem_append_left back (List.mem_append_right front member)
      exact ⟨.inside (mem_of_mem_keptOf kept) .here, .surveyed, by simp,
        .kept (by simp) leads kept .here, [], silent child member, by simp⟩
  | @label label _ _ _ directive labelled surveyed =>
      obtain ⟨isChild, flagged⟩ := flag_of_labelOf labelled
      obtain ⟨given, outcome, -⟩ := exists_of_mem_surveyAll surveyed member
      obtain ⟨labelInfo, inner⟩ := label
      obtain ⟨-, -, inline, -⟩ := anchored.of_mem isChild
      exact ⟨.inside isChild (.inside member .here), .removed, by simp,
        .label (by simp) directive labelled member .here, given, outcome,
        no_label_of_inline (inline flagged child member) outcome⟩

/-- The destination of a link with an address: the localised address, if the survey comes to the
link, and otherwise the address that it had. -/
inductive SentTo (s : Settings) (fate : Fate) (url : Text) : Text → Prop where
  | localized {destination : Text} (reached : fate ≠ .ignored)
      (localizes : Url.localize s.locale s.placeholder url = .ok destination) :
      SentTo s fate url destination
  | kept (ignored : fate = .ignored) : SentTo s fate url url

/-- A surveyed document gives every link with an address its destination. -/
theorem StandsIn.exists_destination {root : Node} {fate : Fate} {url : Text}
    (stands : StandsIn root fate (.mk info label))
    (surveyed : (surveyDocument s root).result = .ok changes) (link : info.kind = .link)
    (address : info.url = some url) :
    ∃ destination,
      (if fate = .ignored then info else localizedInfo s info) =
          { info with url := some destination } ∧ SentTo s fate url destination := by
  by_cases ignored : fate = .ignored
  · refine ⟨url, ?_, .kept ignored⟩
    rw [if_pos ignored, ← address]
  · obtain ⟨inner, given, outcome, -⟩ := stands.surveyed ignored surveyed
    obtain ⟨destination, localizes⟩ := localize_of_survey_link link address outcome
    refine ⟨destination, ?_, .localized ignored localizes⟩
    rw [if_neg ignored, localizedInfo, link, address]
    simp only [localizes]

/-- The text of a change has every link that the change covers, with its destination. -/
theorem exists_sends {root : Node} (nests : root.Nests)
    (anchored : ∀ node ∈ root.children, node.Anchored)
    (surveyed : (surveyDocument s root).result = .ok changes) (member : c ∈ changes)
    (kind : c.kind = .content ∨ c.kind = .directiveLabel) (isChild : child ∈ root.children)
    (holds : child.Holds (.mk info label)) (link : info.kind = .link)
    (placed : info.span = some span) (covered : c.span.Covers span) :
    ∃ fate url destination, StandsIn root fate (.mk info label) ∧ info.url = some url ∧
      Sends s root c info label destination ∧ SentTo s fate url destination := by
  obtain ⟨-, ownFacts, -, -⟩ := holds.anchored (anchored child isChild)
  obtain ⟨addressed, own, known, filled⟩ := ownFacts link
  obtain ⟨url, address⟩ := Option.isSome_iff_exists.mp addressed
  cases placed.symm.trans known
  -- The change is written from children of a node that covers the link, so the link stands there.
  obtain ⟨node, isNode, topLevel, given, outcome, inGiven⟩ :=
    exists_of_change_mem_surveyTopLevel surveyed member
  obtain ⟨parent, children, run, stands, written⟩ := exists_writtenFrom kind outcome inGiven
  have parentNests := stands.holds.nests (nests.of_mem isNode)
  have parentAnchored := stands.holds.anchored (anchored node isNode)
  obtain ⟨outer, parentPlaced, around⟩ := written.covers parentNests parentAnchored
  have covers := around.trans covered
  have same := eq_of_holds nests anchored isChild isNode holds stands.holds placed parentPlaced
    covers filled
  subst same
  have inParent := stands.holds_of_covers rfl (nests.of_mem isChild) (anchored child isChild)
    holds link placed filled parentPlaced covers
  obtain ⟨piece, inRun, inPiece⟩ :=
    written.exists_holds parentNests parentAnchored inParent link placed filled covered
  -- What the survey makes of it there is what is written.
  obtain ⟨below, fate, reached, passes, others, found, noLabel⟩ :=
    written.survey_of_mem parentAnchored inRun
  obtain ⟨result, ends, site, becomes⟩ :=
    exists_site_localized inPiece link reached found noLabel
  have standsIn {fate : Fate} {target : Node} (stands : Stands .surveyed child fate target) :
      StandsIn root fate target :=
    ⟨child, isChild, by rwa [if_pos topLevel]⟩
  have linkStands : StandsIn root result (.mk info label) :=
    standsIn ((stands.trans passes).trans ends)
  obtain ⟨destination, rewritten, sentTo⟩ :=
    linkStands.exists_destination surveyed link address
  rw [rewritten] at becomes
  obtain ⟨front, back, cut⟩ := List.append_of_mem inRun
  have pieceNests := nests_localized (s := s) (below.nests parentNests)
  have pieceAnchored := anchored_localized (s := s) (below.anchored parentAnchored)
  rw [becomes] at pieceNests pieceAnchored
  have still : ({ info with url := some destination } : NodeInfo).kind = .link := link
  obtain ⟨before, after, around⟩ := exists_writtenText_fill_eq s.source c.kind site
    (front.map (localized s)) (back.map (localized s)) still placed pieceNests pieceAnchored
  refine ⟨result, url, destination, linkStands, address, ?_, sentTo⟩
  refine ⟨parent, children, run, _, site, _, before, after, standsIn stands, written, ?_, around⟩
  rw [cut, List.map_append, List.map_cons, becomes]

/-- Where a parsed tree nests, the text of a change has every link that the change covers. The link
is sent with its localised address exactly if the survey comes to it or there is nothing to
localise in the address; a link that the survey does not come to is sent with the address that it
has in the source. -/
theorem sends_localized_iff {root : Node} (parsed : (Document.parse s.source).outcome.1 = .ok root)
    (nests : root.Nests) (surveyed : (surveyDocument s root).result = .ok changes)
    (member : c ∈ changes) (kind : c.kind = .content ∨ c.kind = .directiveLabel)
    (holds : root.Holds (.mk info label)) (link : info.kind = .link)
    (placed : info.span = some span) (covered : c.span.Covers span) :
    ∃ url destination, info.url = some url ∧ Sends s root c info label destination ∧
      (Url.localize s.locale s.placeholder url = .ok destination ↔
        ComesTo root (.mk info label) ∨ Url.localize s.locale s.placeholder url = .ok url) ∧
      (¬ ComesTo root (.mk info label) → destination = url) := by
  obtain ⟨isRoot, anchored⟩ := Document.anchored_of_parse parsed
  cases holds with
  | here =>
      exact absurd (link.symm.trans isRoot) (by simp)
  | @inside rootInfo children child _ isChild below =>
      obtain ⟨fate, url, destination, stands, address, sends, sentTo⟩ :=
        exists_sends nests anchored surveyed member kind isChild below link placed covered
      refine ⟨url, destination, address, sends, ?_⟩
      cases sentTo with
      | localized reached localizes =>
          have comes : ComesTo (.mk rootInfo children) (.mk info label) := ⟨fate, reached, stands⟩
          exact ⟨iff_of_true localizes (.inl comes), fun never => absurd comes never⟩
      | kept ignored =>
          have never : ¬ ComesTo (.mk rootInfo children) (.mk info label) := by
            rintro ⟨other, reached, elsewhere⟩
            obtain ⟨-, ownFacts, -, -⟩ := below.anchored (anchored _ isChild)
            obtain ⟨-, own, known, filled⟩ := ownFacts link
            have fate := elsewhere.fate_eq stands nests anchored link known filled
            exact reached (fate.trans ignored)
          exact ⟨⟨.inr, fun either => either.resolve_left never⟩, fun _ => rfl⟩

/-- A directive with the same link in its label and in a block quote. -/
def linkedTwice : Settings :=
  ⟨Text.ofString ":::note[[a](/en/b)]\n> [a](/en/b)\n:::", Text.ofString "en",
    Url.defaultPlaceholder⟩

def linkAt (start : Nat) : NodeInfo :=
  Inline.linkInfo start ⟨1, Text.ofString "/en/b", 4, 9, none, false, 10⟩

def linkLabelAt (start : Nat) : List Node :=
  [.mk { kind := .text, value := some ['a'], span := some (.ofNats (start + 1) (start + 2)) } []]

def linkedLabel : Node :=
  .mk { kind := .paragraph, span := some (.ofNats 7 19),
        data := [(Text.ofString "directiveLabel", .bool true)] }
    [.mk (linkAt 8) (linkLabelAt 8)]

def linkedQuote : Node :=
  .mk { kind := .blockquote, span := some (.ofNats 20 32) }
    [.mk { kind := .paragraph, span := some (.ofNats 22 32) } [.mk (linkAt 22) (linkLabelAt 22)]]

def linkedTwiceTree : Node :=
  .mk { kind := .root, span := some (.ofNats 0 36) }
    [.mk { kind := .directive, name := some (Text.ofString "note"), span := some (.ofNats 0 36) }
      [linkedLabel, linkedQuote]]

theorem parse_linkedTwice :
    (Document.parse linkedTwice.source).outcome.1 = .ok linkedTwiceTree := by
  decide +kernel

theorem surveyDocument_linkedTwice :
    (surveyDocument linkedTwice linkedTwiceTree).result =
      .ok [⟨.directiveLabel, Text.ofString "[a](/%%locale%%/b)", ⟨8, 18⟩,
          Text.ofString "title for the \"note\" callout"⟩,
        ⟨.content, Text.ofString "> [a](/en/b)", ⟨20, 32⟩,
          Text.ofString "content for the \"note\" callout"⟩] := by
  cbv

theorem holds_linkedQuote : linkedTwiceTree.Holds (.mk (linkAt 22) (linkLabelAt 22)) :=
  .inside List.mem_cons_self (.inside (List.mem_cons_of_mem _ List.mem_cons_self)
    (.inside List.mem_cons_self (.inside List.mem_cons_self .here)))

theorem localize_linkedTwice :
    Url.localize linkedTwice.locale linkedTwice.placeholder (Text.ofString "/en/b") =
      .ok (Text.ofString "/%%locale%%/b") := by
  cbv

/-- A change with the text of the quote does not send its link with the localised address. -/
theorem not_sends_linkedQuote (spelled : c.text = Text.ofString "> [a](/en/b)") :
    ¬ Sends linkedTwice linkedTwiceTree c (linkAt 22) (linkLabelAt 22)
      (Text.ofString "/%%locale%%/b") := by
  intro sends
  obtain ⟨before, after, text⟩ := sends.text
  have bare : ({ linkAt 22 with url := some (Text.ofString "/%%locale%%/b") } : NodeInfo).flag
      "angle" = false := by
    decide
  have marked : '%' ∈ c.text := by
    rw [text]
    refine List.mem_append_left after (List.mem_append_right before ?_)
    simp only [linkText, bare]
    simp [Text.ofString]
  rw [spelled] at marked
  exact absurd marked (by decide)

/-- The link in the label is sent with its localised address, the one in the quote as it is. -/
theorem sends_localized_iff_linkedTwice :
    linkedTwiceTree.Nests ∧ ∃ labelChange bodyChange,
      (surveyDocument linkedTwice linkedTwiceTree).result = .ok [labelChange, bodyChange] ∧
      Sends linkedTwice linkedTwiceTree labelChange (linkAt 8) (linkLabelAt 8)
        (Text.ofString "/%%locale%%/b") ∧
      Sends linkedTwice linkedTwiceTree bodyChange (linkAt 22) (linkLabelAt 22)
        (Text.ofString "/en/b") := by
  have tidy : ¬ Document.Strays linkedTwice.source := by
    intro strays
    have checked : (Document.tidyParse linkedTwice.source).outcome.1.isOk = true := by
      decide +kernel
    unfold Document.Strays at strays
    rw [strays] at checked
    cases checked
  have nests := Document.parse_nests tidy parse_linkedTwice
  have inLabel : linkedTwiceTree.Holds (.mk (linkAt 8) (linkLabelAt 8)) :=
    .inside List.mem_cons_self (.inside List.mem_cons_self (.inside List.mem_cons_self .here))
  have comes : ComesTo linkedTwiceTree (.mk (linkAt 8) (linkLabelAt 8)) := by
    have labelled : labelOf [linkedLabel, linkedQuote] = some linkedLabel :=
      Option.filter_some_pos (by decide)
    exact ⟨.removed, by simp, _, List.mem_cons_self,
      .label nofun rfl labelled List.mem_cons_self .here⟩
  refine ⟨nests, _, _, surveyDocument_linkedTwice, ?_, ?_⟩
  · obtain ⟨url, destination, address, sends, localizes, -⟩ :=
      sends_localized_iff parse_linkedTwice nests surveyDocument_linkedTwice List.mem_cons_self
        (.inr rfl) inLabel rfl rfl (by decide)
    cases address
    cases (localizes.mpr (.inl comes)).symm.trans localize_linkedTwice
    exact sends
  · obtain ⟨url, destination, address, sends, localizes, still⟩ :=
      sends_localized_iff parse_linkedTwice nests surveyDocument_linkedTwice
        (List.mem_cons_of_mem _ List.mem_cons_self) (.inl rfl) holds_linkedQuote rfl rfl (by decide)
    cases address
    have never : ¬ ComesTo linkedTwiceTree (.mk (linkAt 22) (linkLabelAt 22)) := by
      intro comes
      cases (localizes.mpr (.inl comes)).symm.trans localize_linkedTwice
      exact not_sends_linkedQuote rfl sends
    cases still never
    exact sends

/-- Not every link in a change is sent with its localised address. The text of a directive holds its
block quotes, but the survey does not come to the links in them. -/
theorem not_forall_sends_localized :
    ¬ ∀ (source locale : Text) (root : Node) (changes : List Change) (c : Change) (info : NodeInfo)
      (label : List Node) (span : Span),
      (Document.parse source).outcome.1 = .ok root →
      (surveyDocument ⟨source, locale, Url.defaultPlaceholder⟩ root).result = .ok changes →
      c ∈ changes → (c.kind = .content ∨ c.kind = .directiveLabel) →
      root.Holds (.mk info label) → info.kind = .link → info.span = some span →
      c.span.Covers span →
      ∃ url destination, info.url = some url ∧
        Url.localize locale Url.defaultPlaceholder url = .ok destination ∧
        Sends ⟨source, locale, Url.defaultPlaceholder⟩ root c info label destination := by
  intro claim
  obtain ⟨url, destination, address, localizes, sends⟩ :=
    claim linkedTwice.source linkedTwice.locale linkedTwiceTree _ _ (linkAt 22) (linkLabelAt 22)
      (.ofNats 22 32) parse_linkedTwice surveyDocument_linkedTwice
      (List.mem_cons_of_mem _ List.mem_cons_self) (.inl rfl) holds_linkedQuote rfl rfl (by decide)
  cases address
  cases localizes.symm.trans localize_linkedTwice
  exact not_sends_linkedQuote rfl sends

end Extract

end MdxLocalization
