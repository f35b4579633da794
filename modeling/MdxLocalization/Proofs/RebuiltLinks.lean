import MdxLocalization.Proofs.CanonicalLinks
import MdxLocalization.Proofs.LabelRespelling
import MdxLocalization.Proofs.LocalizedAddress

/-!
# Links built anew

A link is written from its label, its address and its title, and what is written is scanned again in
the translated document. The label is the old one respelled, so it ends where it did. In front of
the address white space goes, and the title gets double quotes as its marks, which are escaped in
it.

Behind the address something can get lost. White space ends an address also while a bracket of it is
open; when no title follows, the white space is not written, and then the bracket of the link is
taken for one of the address. `Closed` excludes this, and then the link is still the same link. It
is written again as it is read when nothing in its label became a link that is not canonical.
-/

namespace MdxLocalization.Inline

open Extract Url

/-! ### Titles -/

/-- The second title is the first one with a backslash in front of each double quote that had
none. -/
inductive QuotesEscaped : Text → Text → Prop where
  | nil : QuotesEscaped [] []
  | escape (c : Char) {title other : Text} (later : QuotesEscaped title other) :
      QuotesEscaped ('\\' :: c :: title) ('\\' :: c :: other)
  | quote {title other : Text} (later : QuotesEscaped title other) :
      QuotesEscaped ('"' :: title) ('\\' :: '"' :: other)
  | char {c : Char} {title other : Text} (plain : c ≠ '\\') (noQuote : c ≠ '"')
      (later : QuotesEscaped title other) : QuotesEscaped (c :: title) (c :: other)

theorem quotesEscaped_escapeTitle {title : Text} (whole : title.Whole) :
    QuotesEscaped title (escapeTitle title) := by
  induction whole with
  | nil =>
      exact .nil
  | escape c later hypothesis =>
      rw [escapeTitle_escape]
      exact .escape c hypothesis
  | @char c rest plain later hypothesis =>
      by_cases quote : c = '"'
      · subst quote
        rw [escapeTitle_quote]
        exact .quote hypothesis
      · rw [escapeTitle_char plain quote]
        exact .char plain quote hypothesis

theorem QuotesEscaped.titleText {title other : Text} (escaped : QuotesEscaped title other) :
    TitleText '"' other := by
  induction escaped with
  | nil =>
      exact .nil
  | escape c later hypothesis =>
      exact .escape c hypothesis
  | quote later hypothesis =>
      exact .escape '"' hypothesis
  | char plain noQuote later hypothesis =>
      exact .char plain noQuote hypothesis

theorem QuotesEscaped.respells {title other : Text} (escaped : QuotesEscaped title other) :
    Respells title other := by
  induction escaped with
  | nil =>
      exact .nil
  | escape c later hypothesis =>
      exact .escape c hypothesis
  | quote later hypothesis =>
      exact .quote hypothesis
  | char plain noQuote later hypothesis =>
      exact .char plain hypothesis

/-! ### White space -/

theorem LinkBlank.fillers {blanks : Text} (blank : LinkBlank blanks) : ∀ c ∈ blanks, Filler c := by
  intro c member
  have space := blank c member
  simp only [isLinkSpace, Bool.or_eq_true, beq_iff_eq] at space
  rcases space with ((rfl | rfl) | rfl) | rfl <;> simp [Filler, tick]

theorem filler_of_titleCloser? {opens closes : Char} (marks : titleCloser? opens = some closes) :
    Filler opens ∧ Filler closes := by
  rcases titleCloser?_cases marks with ⟨rfl, rfl⟩ | ⟨rfl, rfl⟩ | ⟨rfl, rfl⟩ <;>
    simp [Filler, tick]

theorem TitlePart.respells {title : Option Text} {part t other : Text}
    (titled : TitlePart title part) (later : Respells t other) :
    Respells (part ++ ')' :: t) (writtenTitle title ++ ')' :: other) := by
  have bracket : Filler ')' ∧ Filler '"' ∧ Filler ' ' := by
    simp [Filler, tick]
  cases titled with
  | absent blank =>
      have exchanged := Respells.exchangeAll (part ++ [')']) (by simp)
        (List.forall_mem_append.mpr ⟨blank.fillers, by simpa using bracket.1⟩) bracket.1 later
      simpa [writtenTitle] using exchanged
  | @present before title after opens closes marks text blank blankAfter =>
      obtain ⟨opensFiller, closesFiller⟩ := filler_of_titleCloser? marks
      have ends := Respells.exchangeAllByTwo (closes :: (after ++ [')'])) (by simp)
        (List.forall_mem_cons.mpr ⟨closesFiller,
          List.forall_mem_append.mpr ⟨blankAfter.fillers, by simpa using bracket.1⟩⟩)
        bracket.2.1 bracket.1 later
      have inside := (quotesEscaped_escapeTitle text.whole).respells.append ends
      have starts := Respells.exchangeAllByTwo (before ++ [opens]) (by simp)
        (List.forall_mem_append.mpr ⟨blank.fillers, by simpa using opensFiller⟩)
        bracket.2.2 bracket.2.1 inside
      simpa [writtenTitle] using starts

theorem Destination.whole {angle : Bool} {url behind : Text}
    (spelled : Destination angle url behind) : (opening angle ++ (url ++ closing angle)).Whole := by
  cases spelled with
  | angled free =>
      exact .concat ('<' :: url) (by decide)
  | bare text ends unmarked =>
      simpa [opening, closing] using text.whole

variable {parts : LinkSyntax} {label blanks part after : Text}

theorem Spelling.roundBrackets_respell (spelling : Spelling parts label blanks part after)
    {t rest : Text} (later : Respells t rest) :
    Respells (roundBrackets parts.angle blanks parts.url part t)
      (roundBrackets parts.angle [] parts.url (writtenTitle parts.title) rest) := by
  have bracket : Filler '(' := by
    simp [Filler, tick]
  have address := (Respells.refl spelling.destination.whole).append (spelling.title.respells later)
  have whole := Respells.exchangeAll ('(' :: blanks) (List.cons_ne_nil _ _)
    (List.forall_mem_cons.mpr ⟨bracket, spelling.blank.fillers⟩) bracket address
  simpa [roundBrackets] using whole

theorem Spelling.respells (spelling : Spelling parts label blanks part after)
    {t other rest : Text} (labelled : Respells label other) (later : Respells t rest) :
    Respells (spelledLink parts.angle label blanks parts.url part t)
      (spelledLink parts.angle other [] parts.url (writtenTitle parts.title) rest) :=
  .char (by decide) (labelled.append (.char (by decide) (spelling.roundBrackets_respell later)))

/-! ### Labels -/

variable {source pending t : Text} {start position : Nat}

/-- The characters so far, a construct that is written respelled, and what follows it. -/
theorem respells_construct {c : Char} {rest : Text} {length : Nat} {node : Node}
    {nodes : List Node} (counted : start + pending.length = position)
    (stands : source.StandsAt (pending.reverse ++ c :: rest) start) (positive : 0 < length)
    (here : Respells ((c :: rest).take length) (sourceText source node))
    (later : Respells (rest.drop (length - 1)) (sourceTexts source nodes)) :
    ∃ other, sourceTexts source (flush position pending ++ node :: nodes) =
      pending.reverse ++ other ∧ Respells (c :: rest) other := by
  have both := here.append later
  rw [Text.take_append_drop_pred positive] at both
  exact ⟨_, sourceTexts_construct counted stands.left node nodes, both⟩

/-- What is written for the nodes of a text is the text respelled. -/
theorem respells_scanFrom (whole : Text.Whole t) (counted : start + pending.length = position)
    (stands : source.StandsAt (pending.reverse ++ t) start) :
    ∃ other, sourceTexts source (scanFrom position pending t) = pending.reverse ++ other ∧
      Respells t other := by
  have further {c : Char} {rest : Text} {length : Nat} (whole : Text.Whole (c :: rest))
      (positive : 0 < length) (here : Text.Whole ((c :: rest).take length)) :
      Text.Whole (rest.drop (length - 1)) :=
    .of_append here (by rwa [Text.take_append_drop_pred positive])
  induction t using scanFrom_induction generalizing start position pending with
  | nil =>
      rw [List.append_nil] at stands
      refine ⟨[], ?_, .nil⟩
      rw [scanFrom_nil, sourceTexts_flush counted stands, List.append_nil]
  | backslash =>
      cases whole with
      | char plain later =>
          exact absurd rfl plain
  | collects piece rest wholePiece collected hypothesis =>
      obtain ⟨other, written, later⟩ := hypothesis (.of_append wholePiece whole)
        (counted_append counted piece) (by simpa using stands)
      refine ⟨piece ++ other, ?_, (Respells.refl wholePiece).append later⟩
      rw [collected, written]
      simp
  | code rest value length found hypothesis =>
      have placed := stands.unread counted
      have positive := codeSpan?_length_pos found
      have within := codeSpan?_length_le found
      have here := whole_take_codeSpan? found
      obtain ⟨other, written, later⟩ := @hypothesis [] _ _ (further whole positive here)
        (Nat.add_zero _) (placed.behind positive within)
      rw [scanFrom_code found]
      refine respells_construct counted stands positive ?_ (by rwa [written])
      rw [sourceText_codeNode placed within]
      exact .refl here
  | image rest parts found hypothesis =>
      have placed := stands.unread counted
      have positive := Nat.succ_pos parts.length
      have fits := (link?_within (link?_of_imageLink? found)).1
      have here := whole_take_imageLink? found
      obtain ⟨other, written, later⟩ := @hypothesis [] _ _ (further whole positive here)
        (Nat.add_zero _) (placed.tail.drop fits)
      rw [scanFrom_image found]
      refine respells_construct counted stands positive ?_ (by rwa [written])
      rw [sourceText_imageNode placed (Nat.succ_le_succ fits)]
      exact .refl here
  | link rest parts found labelHypothesis hypothesis =>
      have placed := stands.unread counted
      have positive : 0 < parts.length := Nat.zero_lt_of_lt (link?_label_lt found)
      have behind := placed.behind positive (link?_within found).1
      have labelled := placed.tail.take parts.labelLength
      obtain ⟨label, blanks, part, after, spelled, spelling⟩ := exists_spelling found
      obtain ⟨other, written, later⟩ := @hypothesis [] _ _
        (further whole positive (whole_take_link? found)) (Nat.add_zero _) behind
      have isLabel := spelling.take_labelLength spelled
      obtain ⟨relabel, relabelled, respelled⟩ := @labelHypothesis [] _ _
        (isLabel ▸ spelling.isLabel.whole) (Nat.add_zero _) labelled
      rw [scanFrom_link found]
      refine respells_construct counted stands positive ?_ (by rwa [written])
      rw [sourceText_link rfl rfl, flag_linkInfo, relabelled, spelled, spelling.take_length]
      exact spelling.respells (isLabel ▸ respelled) .nil

/-! ### Links -/

/-- What a written link is read as: its parts, when the label and the address are given. -/
def rebuilt (angle : Bool) (label u : Text) (title : Option Text) : LinkSyntax where
  labelLength := label.length
  url := u
  urlStart := label.length + 3 + (opening angle).length
  urlStop := label.length + 3 + (opening angle).length + u.length
  title := title.map escapeTitle
  angle := angle
  length := (writtenLink angle label u title).length

variable {other u : Text}

theorem titlePart_writtenTitle {title : Option Text} (titled : TitlePart title part) :
    TitlePart (title.map escapeTitle) (writtenTitle title) := by
  cases titled with
  | absent blank =>
      exact .absent (by simp [LinkBlank, writtenTitle])
  | present marks text blank blankAfter =>
      have escaped := (quotesEscaped_escapeTitle text.whole).titleText
      have space : LinkBlank [' '] := by
        simp [LinkBlank, isLinkSpace]
      exact .present rfl escaped space (List.forall_mem_nil _)

/-- The address of a link can be told from what is written behind it. -/
def Closed (parts : LinkSyntax) : Prop :=
  parts.angle = true ∨ parts.title ≠ none ∨ BareText 0 0 parts.url

theorem Spelling.rebuilt_destination (spelling : Spelling parts label blanks part after)
    (same : Readdressed parts.url u) (closed : Closed parts) :
    Destination parts.angle u (writtenTitle parts.title ++ [')']) := by
  have destination := spelling.destination
  obtain ⟨labelLength, url, urlStart, urlStop, title, angle, length⟩ := parts
  unfold Closed at closed
  dsimp only at *
  generalize part ++ ')' :: after = behind at destination
  cases destination with
  | angled free =>
      exact .angled (same.free free)
  | bare text ends unmarked =>
      rw [← same.head?] at unmarked
      cases title with
      | some title =>
          exact .bare (same.bareText text) (.inl (by decide)) unmarked
      | none =>
          have balanced : BareText 0 0 url := by
            simpa using closed
          exact .bare (same.bareText balanced) (.inr ⟨rfl, rfl⟩) unmarked

theorem Spelling.rebuilt_isLabel (spelling : Spelling parts label blanks part after)
    (labelled : Respells label other) (same : Readdressed parts.url u) :
    IsLabel 1 other (roundBrackets parts.angle [] u (writtenTitle parts.title) []) := by
  refine spelling.isLabel.respelled labelled fun run member => ?_
  have readdressed : tickRuns 0 (roundBrackets parts.angle [] u (writtenTitle parts.title) []) =
      tickRuns 0 (roundBrackets parts.angle [] parts.url (writtenTitle parts.title) []) :=
    same.tickRuns_eq 0 ('(' :: opening parts.angle) _
  rw [readdressed, (spelling.roundBrackets_respell .nil).tickRuns_eq] at member
  have cut (t : Text) : tickRuns 0 (roundBrackets parts.angle blanks parts.url part t) =
      tickRuns 0 ('(' :: (blanks ++ (opening parts.angle ++ (parts.url ++
        (closing parts.angle ++ part))))) ++ tickRuns 0 t := by
    rw [← tickRuns_append (c := ')') (by decide)]
    simp [roundBrackets]
  rw [cut] at member ⊢
  exact List.mem_append_left _ (by simpa [tickRuns_nil, runOf] using member)

theorem Spelling.rebuilt (spelling : Spelling parts label blanks part after)
    (labelled : Respells label other) (same : Readdressed parts.url u) (closed : Closed parts) :
    Spelling (rebuilt parts.angle other u parts.title) other [] (writtenTitle parts.title) [] where
  isLabel := spelling.rebuilt_isLabel labelled same
  blank := by simp [LinkBlank]
  destination := spelling.rebuilt_destination same closed
  tight := by
    intro bare empty
    have emptyToo : parts.url = [] := by
      have first := same.head?
      rw [show u = [] from empty] at first
      exact List.head?_eq_none_iff.mp first.symm
    have titled := spelling.title
    rw [spelling.tight bare emptyToo] at titled
    rw [titled.of_nil]
    rfl
  title := titlePart_writtenTitle spelling.title
  labelLength := rfl
  urlStart := rfl
  urlStop := rfl
  length := by
    simp only [Inline.rebuilt, writtenLink, spelledLink, roundBrackets, List.length_cons,
      List.length_append, List.length_nil]
    omega

theorem scan_whole (t : Text) : scan t 0 t.length = .ok (scanFrom 0 [] t) := by
  rw [scan_eq_ok (Nat.le_refl _)]
  simp [Text.slice]

/-- A link that is followed by nothing is all that there is. -/
theorem scan_spelledLink (spelling : Spelling parts label blanks part []) :
    let t := spelledLink parts.angle label blanks parts.url part []
    scan t 0 t.length = .ok [.mk (linkInfo 0 parts) (scanFrom 1 [] label)] := by
  intro t
  have found : link? t = some parts := link?_of_spelling spelling
  have positive : 0 < parts.length := Nat.zero_lt_of_lt (link?_label_lt found)
  obtain ⟨rest, same⟩ : ∃ rest, t = '[' :: rest := ⟨_, rfl⟩
  have isLabel := spelling.take_labelLength same.symm
  have nothing : rest.drop (parts.length - 1) = [] := by
    have dropped : t.drop parts.length = [] := spelling.drop_length
    rw [same] at dropped
    rwa [← Nat.sub_add_cancel positive, List.drop_succ_cons] at dropped
  rw [scan_whole, same]
  rw [same] at found
  rw [scanFrom_link found, isLabel, nothing, scanFrom_nil]
  rfl

/-- A text is read as a link again, with another address: as one link that spans the text, with the
given label and a title in which only bare double quotes have changed; and the link is written as it
is read. -/
structure StillLink (info : NodeInfo) (label u t : Text) (parts : LinkSyntax) (inner : List Node) :
    Prop where
  found : link? t = some parts
  scanned : scan t 0 t.length = .ok [.mk (linkInfo 0 parts) inner]
  whole : parts.length = t.length
  url : parts.url = u
  angle : parts.angle = info.flag "angle"
  title : Option.Rel QuotesEscaped info.title parts.title
  labelled : Text.slice t 1 (1 + parts.labelLength) = label
  written : sourceText t (.mk (linkInfo 0 parts) inner) = t

variable {position : Nat}

/-- The label of a written link, scanned in its place. -/
theorem scan_label (angle : Bool) (label url part : Text) :
    let t := spelledLink angle label [] url part []
    Text.slice t 1 (1 + label.length) = label ∧
      scan t 1 (1 + label.length) = .ok (scanFrom 1 [] label) ∧
      (sourceTexts t (scanFrom 1 [] label) = label ↔ AllCanonical t (scanFrom 1 [] label)) := by
  intro t
  have stands : t.StandsAt label 1 := ⟨['['], ']' :: roundBrackets angle [] url part [], rfl, rfl⟩
  have cut := stands.slice_eq
  have restores : Restores t (scanFrom 1 [] label) label :=
    restores_scanFrom (Nat.add_zero _) stands
  refine ⟨cut, ?_, restores.iff⟩
  have within : 1 + label.length ≤ t.length := by
    simp only [t, spelledLink, List.length_cons, List.length_append]
    omega
  rw [scan_eq_ok within, cut]

/-- A written link from which the label and the address are read again shows where its address
ends. -/
theorem closed_of_link? {title : Option Text} {angle : Bool} {again : LinkSyntax}
    (found : link? (writtenLink angle label u title) = some again)
    (whole : again.length = (writtenLink angle label u title).length)
    (sameUrl : again.url = u) (sameAngle : again.angle = angle)
    (labelled : Text.slice (writtenLink angle label u title) 1 (1 + again.labelLength) = label) :
    angle = true ∨ title ≠ none ∨ BareText 0 0 u := by
  subst sameUrl sameAngle
  obtain ⟨readLabel, blanks, part, after, same, spelling⟩ := exists_spelling found
  have stands : Text.StandsAt (spelledLink again.angle readLabel blanks again.url part after)
      readLabel 1 := ⟨['['], _, rfl, rfl⟩
  have cut := stands.slice_eq
  change writtenLink again.angle label again.url title = _ at same
  rw [same, spelling.labelLength, cut] at labelled
  subst labelled
  cases title with
  | some title =>
      exact .inr (.inl nofun)
  | none =>
      have nothing : part = [] ∧ after = [] := by
        have size := congrArg List.length same
        rw [whole.symm.trans spelling.length_eq.symm] at size
        simp only [spelledLink, roundBrackets, List.length_cons, List.length_append,
          List.length_nil] at size
        have sizeToo := congrArg List.length same
        simp only [writtenLink, writtenTitle, spelledLink, roundBrackets, List.length_cons,
          List.length_append, List.length_nil] at sizeToo
        exact ⟨List.eq_nil_of_length_eq_zero (by omega), List.eq_nil_of_length_eq_zero (by omega)⟩
      obtain ⟨rfl, rfl⟩ := nothing
      have destination := spelling.destination
      generalize again.angle = angle, again.url = url at destination ⊢
      cases destination with
      | angled free =>
          exact .inl rfl
      | bare text ends unmarked =>
          rcases ends with blank | ⟨rfl, -⟩
          · cases blank
          · exact .inr (.inr text)

theorem writtenTitle_escapeTitle {title : Option Text} (titled : TitlePart title part) :
    writtenTitle (title.map escapeTitle) = writtenTitle title := by
  cases titled with
  | absent blank =>
      rfl
  | present marks text blank blankAfter =>
      have escaped := (quotesEscaped_escapeTitle text.whole).titleText
      rw [Option.map_some, writtenTitle, escaped.escapeTitle_eq, writtenTitle]

theorem rel_escapeTitle {title : Option Text} (titled : TitlePart title part) :
    Option.Rel QuotesEscaped title (title.map escapeTitle) := by
  cases titled with
  | absent blank =>
      exact .none
  | present marks text blank blankAfter =>
      exact .some (quotesEscaped_escapeTitle text.whole)

theorem stillLink_iff (spelling : Spelling parts label blanks part after)
    (labelled : Respells label other) (same : Readdressed parts.url u) :
    let t := writtenLink parts.angle other u parts.title
    (∃ again inner, StillLink (linkInfo position parts) other u t again inner) ↔
      Closed parts ∧ ∀ inner, scan t 1 (1 + other.length) = .ok inner → AllCanonical t inner := by
  intro t
  obtain ⟨cut, scanned, restored⟩ : Text.slice t 1 (1 + other.length) = other ∧
      scan t 1 (1 + other.length) = .ok (scanFrom 1 [] other) ∧
      (sourceTexts t (scanFrom 1 [] other) = other ↔ AllCanonical t (scanFrom 1 [] other)) :=
    scan_label ..
  -- When the address is closed, the text is a link with known parts.
  have read (closed : Closed parts) :
      link? t = some (Inline.rebuilt parts.angle other u parts.title) ∧
      scan t 0 t.length =
        .ok [.mk (linkInfo 0 (Inline.rebuilt parts.angle other u parts.title))
          (scanFrom 1 [] other)] :=
    have rebuilt := spelling.rebuilt labelled same closed
    ⟨link?_of_spelling rebuilt, scan_spelledLink rebuilt⟩
  have written_iff (inner : List Node) :
      sourceText t (.mk (linkInfo 0 (Inline.rebuilt parts.angle other u parts.title)) inner) = t ↔
        sourceTexts t inner = other := by
    rw [sourceText_link rfl rfl, flag_linkInfo]
    change writtenLink parts.angle _ u (parts.title.map escapeTitle) = _ ↔ _
    rw [writtenLink, writtenTitle_escapeTitle spelling.title]
    constructor
    · intro equal
      exact List.append_cancel_right (List.cons.inj equal).2
    · intro equal
      rw [equal]
      rfl
  constructor
  · rintro ⟨again, inner, still⟩
    have closed : Closed parts := by
      have ends := closed_of_link? still.found still.whole still.url
        (still.angle.trans (flag_linkInfo position parts)) still.labelled
      exact ends.imp_right (Or.imp_right same.symm.bareText)
    obtain ⟨found, whole⟩ := read closed
    rw [still.found] at found
    cases found
    rw [still.scanned] at whole
    cases whole
    refine ⟨closed, fun nodes scannedToo => ?_⟩
    rw [scanned] at scannedToo
    cases scannedToo
    exact restored.mp ((written_iff _).mp still.written)
  · rintro ⟨closed, canonical⟩
    obtain ⟨found, whole⟩ := read closed
    exact ⟨_, _, {
      found := found
      scanned := whole
      whole := rfl
      url := rfl
      angle := (flag_linkInfo position parts).symm
      title := rel_escapeTitle spelling.title
      labelled := cut
      written := (written_iff _).mpr (restored.mpr (canonical _ scanned)) }⟩

/-! ### Regions -/

/-- A link among the nodes of a text has been read somewhere in it. -/
theorem exists_link_of_mem {info : NodeInfo} {children : List Node} (kind : info.kind = .link)
    (member : Node.mk info children ∈ scanFrom position pending t)
    (counted : start + pending.length = position)
    (stands : source.StandsAt (pending.reverse ++ t) start) :
    ∃ place rest parts, link? ('[' :: rest) = some parts ∧ info = linkInfo place parts ∧
      children = scanFrom (place + 1) [] (rest.take parts.labelLength) ∧
      source.StandsAt ('[' :: rest) place := by
  have noLink {position : Nat} {pending : Text}
      (member : Node.mk info children ∈ flush position pending) : False := by
    unfold flush at member
    split at member
    · cases member
    · cases List.mem_singleton.mp member
      cases kind
  induction t using scanFrom_induction generalizing start position pending with
  | nil =>
      rw [scanFrom_nil] at member
      exact (noLink member).elim
  | backslash =>
      rw [scanFrom_backslash_end] at member
      exact (noLink member).elim
  | collects piece rest whole collected hypothesis =>
      rw [collected] at member
      exact hypothesis member (counted_append counted piece) (by simpa using stands)
  | code rest value length found hypothesis =>
      have behind := (stands.unread counted).behind (codeSpan?_length_pos found)
        (codeSpan?_length_le found)
      rw [scanFrom_code found, List.mem_append, List.mem_cons] at member
      rcases member with flushed | same | later
      · exact (noLink flushed).elim
      · cases same
        cases kind
      · exact hypothesis later (Nat.add_zero _) behind
  | image rest parts found hypothesis =>
      have behind := (stands.unread counted).tail.drop
        (link?_within (link?_of_imageLink? found)).1
      rw [scanFrom_image found, List.mem_append, List.mem_cons] at member
      rcases member with flushed | same | later
      · exact (noLink flushed).elim
      · cases same
        cases kind
      · exact hypothesis later (Nat.add_zero _) behind
  | link rest parts found labelHypothesis hypothesis =>
      have placed := stands.unread counted
      rw [scanFrom_link found, List.mem_append, List.mem_cons] at member
      rcases member with flushed | same | later
      · exact (noLink flushed).elim
      · cases same
        exact ⟨position, rest, parts, found, rfl, rfl, placed⟩
      · exact hypothesis later (Nat.add_zero _)
          (placed.behind (Nat.zero_lt_of_lt (link?_label_lt found)) (link?_within found).1)

/-- A link of a region that is written anew, with its own address or a localised one, is still the
same link, and written again as it is read, exactly when its address shows where it ends and all
links in its label, as it is written now, are canonical. An address ends at its angle bracket, at
the white space in front of a title, or at the bracket behind it if its own brackets are closed. -/
theorem scan_rebuilt_iff {source : Text} {start stop : Nat} {nodes : List Node} {info : NodeInfo}
    {children : List Node} {url u : Text} (scanned : scan source start stop = .ok nodes)
    (member : Node.mk info children ∈ nodes) (kind : info.kind = .link)
    (address : info.url = some url)
    (kept : u = url ∨ ∃ locale, localize locale defaultPlaceholder url = .ok u) :
    let label := sourceTexts source children
    let t := sourceText source (.mk { info with url := some u } children)
    (∃ again inner, StillLink info label u t again inner) ↔
      (info.flag "angle" = true ∨ info.title ≠ none ∨ BareText 0 0 url) ∧
        ∀ inner, scan t 1 (1 + label.length) = .ok inner → AllCanonical t inner := by
  intro label t
  have same : Readdressed url u := by
    rcases kept with rfl | ⟨locale, localized⟩
    · exact .refl u
    · exact readdressed_of_localize localized
  have among := eq_scanFrom_of_scan scanned
  have inside : start ≤ source.length := by
    by_contra past
    have empty : Text.slice source start stop = [] := by
      rw [Text.slice, List.drop_of_length_le (Nat.le_of_not_le past), List.take_nil]
    rw [among, empty, scanFrom_nil] at member
    cases member
  rw [among] at member
  obtain ⟨place, rest, parts, found, rfl, rfl, placed⟩ :=
    exists_link_of_mem kind member (Nat.add_zero _) (Text.standsAt_slice inside)
  obtain rfl : parts.url = url := Option.some.inj address
  obtain ⟨spelledLabel, blanks, part, after, spelled, spelling⟩ := exists_spelling found
  have isLabel := spelling.take_labelLength spelled
  obtain ⟨other, labelled, respelled⟩ :
      ∃ other, label = other ∧ Respells (rest.take parts.labelLength) other :=
    respells_scanFrom (isLabel ▸ spelling.isLabel.whole) (Nat.add_zero _)
      (placed.tail.take parts.labelLength)
  have rewritten : t = writtenLink parts.angle label u parts.title := by
    have flag := flag_linkInfo place parts
    rw [← flag]
    exact sourceText_link rfl rfl
  rw [flag_linkInfo, labelled, rewritten, labelled]
  exact stillLink_iff spelling (isLabel ▸ respelled) same

/-- In the label of a link, white space in front of an address goes. The address of the link itself
leaves a bracket open, but a title follows it, in which a quote has to be escaped. -/
theorem scan_rebuilt_iff_localized :
    let source := Text.ofString "- [[b]( c )](/en/d( 'e \"')"
    let letter : Node := .mk { kind := .text, value := some ['b'], span := some ⟨4, 5⟩ } []
    let children : List Node := [.mk (linkInfo 3 ⟨1, ['c'], 5, 6, none, false, 8⟩) [letter]]
    let info := linkInfo 2
      ⟨8, Text.ofString "/en/d(", 11, 17, some (Text.ofString "e \""), false, 24⟩
    let u := Text.ofString "/%%locale%%/d("
    let t := sourceText source (.mk { info with url := some u } children)
    scan source 2 26 = .ok [.mk info children] ∧ Node.mk info children ∈ [Node.mk info children] ∧
      info.kind = .link ∧ info.url = some (Text.ofString "/en/d(") ∧
      localize (Text.ofString "en-US") defaultPlaceholder (Text.ofString "/en/d(") = .ok u ∧
      t = Text.ofString "[[b](c)](/%%locale%%/d( \"e \\\"\")" ∧
      ∃ again inner, StillLink info (Text.ofString "[b](c)") u t again inner := by
  intro source letter children info u t
  have outerFound : link? ('[' :: Text.ofString "[b]( c )](/en/d( 'e \"')") =
      some ⟨8, Text.ofString "/en/d(", 11, 17, some (Text.ofString "e \""), false, 24⟩ := by
    decide +kernel
  have innerFound : link? ('[' :: Text.ofString "b]( c )") =
      some ⟨1, ['c'], 5, 6, none, false, 8⟩ := by
    decide +kernel
  have againFound : link? ('[' :: Text.ofString "b](c)") =
      some ⟨1, ['c'], 4, 5, none, false, 6⟩ := by
    decide +kernel
  have scanned : scan source 2 26 = .ok [.mk info children] := by
    change Except.ok (scanFrom 2 [] ('[' :: Text.ofString "[b]( c )](/en/d( 'e \"')")) = _
    rw [scanFrom_link outerFound]
    change Except.ok ([] ++ .mk info (scanFrom 3 [] ('[' :: Text.ofString "b]( c )")) ::
      scanFrom 26 [] []) = _
    rw [scanFrom_link innerFound, scanFrom_nil]
    change Except.ok ([] ++ .mk info ([] ++ .mk (linkInfo 3 ⟨1, ['c'], 5, 6, none, false, 8⟩)
      (scanFrom 4 [] ['b']) :: scanFrom 11 [] []) :: ([] : List Node)) = _
    rw [scanFrom_char (by decide) (by decide) (by decide) (by decide), scanFrom_nil, scanFrom_nil]
    rfl
  have localized : localize (Text.ofString "en-US") defaultPlaceholder (Text.ofString "/en/d(") =
      .ok u := by
    decide +kernel
  have rewritten : t = Text.ofString "[[b](c)](/%%locale%%/d( \"e \\\"\")" := by
    decide +kernel
  have label : sourceTexts source children = Text.ofString "[b](c)" := by
    decide +kernel
  refine ⟨scanned, List.mem_singleton_self _, rfl, rfl, localized, rewritten, ?_⟩
  have still := scan_rebuilt_iff scanned (List.mem_singleton_self _) rfl rfl
    (.inr ⟨_, localized⟩)
  rw [label] at still
  refine still.mpr ⟨.inr (.inl nofun), fun inner again => ?_⟩
  change scan t 1 7 = _ at again
  change AllCanonical t inner
  rw [rewritten] at again ⊢
  change Except.ok (scanFrom 1 [] ('[' :: Text.ofString "b](c)")) = _ at again
  rw [scanFrom_link againFound] at again
  change Except.ok ([] ++ Node.mk (linkInfo 1 ⟨1, ['c'], 4, 5, none, false, 6⟩)
    (scanFrom 2 [] ['b']) :: scanFrom 7 [] []) = _ at again
  rw [scanFrom_char (by decide) (by decide) (by decide) (by decide), scanFrom_nil, scanFrom_nil]
    at again
  cases again
  refine List.forall_mem_singleton.mpr (.mk (fun _ => ?_) ?_)
  · exact ⟨1, 7, ['b'], ['c'], [], rfl, rfl, .head _, by decide, .inl rfl⟩
  · exact List.forall_mem_singleton.mpr (.mk (by simp) (by simp))

/-- Not every link is still a link when it is written anew: white space may be all that ends an
address with a bracket left open, and it is not written. -/
theorem not_forall_stillLink :
    ¬ ∀ (source : Text) (start stop : Nat) (nodes : List Node) (info : NodeInfo)
        (children : List Node) (url u : Text),
      scan source start stop = .ok nodes → Node.mk info children ∈ nodes → info.kind = .link →
      info.url = some url → (u = url ∨ ∃ locale, localize locale defaultPlaceholder url = .ok u) →
      ∃ again inner, StillLink info (sourceTexts source children) u
        (sourceText source (.mk { info with url := some u } children)) again inner := by
  intro claim
  let source := Text.ofString "[a](b( )"
  let letter : Node := .mk { kind := .text, value := some ['a'], span := some ⟨1, 2⟩ } []
  let info := linkInfo 0 ⟨1, Text.ofString "b(", 4, 6, none, false, 8⟩
  have found : link? ('[' :: Text.ofString "a](b( )") =
      some ⟨1, Text.ofString "b(", 4, 6, none, false, 8⟩ := by
    decide +kernel
  have scanned : scan source 0 8 = .ok [.mk info [letter]] := by
    change Except.ok (scanFrom 0 [] ('[' :: Text.ofString "a](b( )")) = _
    rw [scanFrom_link found]
    change Except.ok ([] ++ Node.mk info (scanFrom 1 [] ['a']) :: scanFrom 8 [] []) = _
    rw [scanFrom_char (by decide) (by decide) (by decide) (by decide), scanFrom_nil, scanFrom_nil]
    rfl
  obtain ⟨again, inner, still⟩ := claim source 0 8 _ info [letter] (Text.ofString "b(")
    (Text.ofString "b(") scanned (List.mem_singleton_self _) rfl rfl (.inl rfl)
  have rewritten : sourceText source (.mk info [letter]) = Text.ofString "[a](b()" := by
    decide +kernel
  have absent : link? (Text.ofString "[a](b()") = none := by
    decide +kernel
  have read : link? (sourceText source (.mk info [letter])) = some again := still.found
  rw [rewritten, absent] at read
  cases read

end MdxLocalization.Inline
