import MdxLocalization.Proofs.InlineCut
import MdxLocalization.Proofs.Splicing

/-!
# Writing scanned content

Scanned nodes are written one after the other. Texts, code spans and images are written as they
stand; a link is built anew from its label, its address and its title, in one spelling out of the
many that are read. A link that has this spelling already comes out as it stands, and any other link
comes out differently, at the first place at which it is spelled differently. So a region is
restored exactly when all links in it, and in the labels of links, are canonical.
-/

namespace MdxLocalization

/-- Neither of two texts starts with the other: at some place they have different characters. -/
def Text.Differ (t other : Text) : Prop :=
  ∃ front c d rest behind, t = front ++ c :: rest ∧ other = front ++ d :: behind ∧ c ≠ d

namespace Text.Differ

variable {t other : Text}

theorem of_head {c d : Char} (different : c ≠ d) (rest behind : Text) :
    Differ (c :: rest) (d :: behind) :=
  ⟨[], c, d, rest, behind, rfl, rfl, different⟩

theorem ne (differ : Differ t other) : t ≠ other := by
  obtain ⟨front, c, d, rest, behind, rfl, rfl, different⟩ := differ
  intro same
  exact different (List.cons.inj (List.append_cancel_left same)).1

theorem append_left (front : Text) (differ : Differ t other) :
    Differ (front ++ t) (front ++ other) := by
  obtain ⟨before, c, d, rest, behind, rfl, rfl, different⟩ := differ
  exact ⟨front ++ before, c, d, rest, behind, by simp, by simp, different⟩

theorem append_right (differ : Differ t other) (u v : Text) : Differ (t ++ u) (other ++ v) := by
  obtain ⟨before, c, d, rest, behind, rfl, rfl, different⟩ := differ
  exact ⟨before, c, d, rest ++ u, behind ++ v, by simp, by simp, different⟩

end Text.Differ

theorem Text.StandsAt.slice_take {t piece : Text} {position n : Nat}
    (stands : t.StandsAt piece position) (within : n ≤ piece.length) :
    slice t position (position + n) = piece.take n := by
  rw [← List.take_append_drop n piece] at stands
  simpa [List.length_take_of_le within] using stands.left.slice_eq

theorem Text.take_append_drop_pred {c : Char} {rest : Text} {length : Nat} (positive : 0 < length) :
    (c :: rest).take length ++ rest.drop (length - 1) = c :: rest := by
  conv => lhs; lhs; rw [← Nat.sub_add_cancel positive]
  rw [List.take_succ_cons, List.cons_append, List.take_append_drop]

theorem Span.toJson_injective {s other : Span} (same : s.toJson = other.toJson) : s = other := by
  obtain ⟨start, stop⟩ := s
  obtain ⟨otherStart, otherStop⟩ := other
  simpa [Span.toJson, Json.record] using same

namespace Inline

open Extract

variable {source pending : Text} {start position : Nat}

/-! ### Nodes -/

theorem sourceTexts_nil (source : Text) : sourceTexts source [] = [] := rfl

theorem sourceTexts_cons (source : Text) (node : Node) (rest : List Node) :
    sourceTexts source (node :: rest) = sourceText source node ++ sourceTexts source rest := rfl

theorem sourceTexts_append (nodes others : List Node) :
    sourceTexts source (nodes ++ others) =
      sourceTexts source nodes ++ sourceTexts source others := by
  induction nodes with
  | nil =>
      rw [List.nil_append, sourceTexts_nil, List.nil_append]
  | cons node rest hypothesis =>
      rw [List.cons_append, sourceTexts_cons, sourceTexts_cons, hypothesis, List.append_assoc]

theorem sourceText_leaf {info : NodeInfo} {start stop : Nat} (noLink : info.kind ≠ .link)
    (placed : info.span = some (.ofNats start stop)) :
    sourceText source (.mk info []) = Text.slice source start stop := by
  rw [sourceText_of_placed noLink placed, sourceBetween]
  exact Text.window_eq_slice source start stop

theorem sourceTexts_flush (counted : start + pending.length = position)
    (stands : source.StandsAt pending.reverse start) :
    sourceTexts source (flush position pending) = pending.reverse := by
  unfold flush
  split
  · rename_i empty
    rw [List.isEmpty_iff.mp empty]
    rfl
  · have begins : position - pending.length = start := by
      omega
    have literal := stands.slice_eq
    rw [List.length_reverse, counted] at literal
    rw [sourceTexts_cons, sourceTexts_nil, List.append_nil, begins,
      sourceText_leaf (by simp) rfl, literal]

/-- The characters so far, a construct behind them, and what follows it. -/
theorem sourceTexts_construct (counted : start + pending.length = position)
    (stands : source.StandsAt pending.reverse start) (node : Node) (nodes : List Node) :
    sourceTexts source (flush position pending ++ node :: nodes) =
      pending.reverse ++ (sourceText source node ++ sourceTexts source nodes) := by
  rw [sourceTexts_append, sourceTexts_flush counted stands, sourceTexts_cons]

theorem sourceText_codeNode {t value : Text} {length : Nat} (stands : source.StandsAt t position)
    (within : length ≤ t.length) :
    sourceText source (codeNode position value length) = t.take length := by
  rw [codeNode, sourceText_leaf (by simp) rfl, stands.slice_take within]

theorem sourceText_imageNode {t label : Text} {parts : LinkSyntax}
    (stands : source.StandsAt t position) (within : parts.length + 1 ≤ t.length) :
    sourceText source (imageNode position label parts) = t.take (parts.length + 1) := by
  rw [imageNode, sourceText_leaf (by simp) rfl, Nat.add_assoc, Nat.add_comm 1,
    stands.slice_take within]

/-! ### Links -/

/-- What is written between the destination and the last bracket of a link. -/
def writtenTitle : Option Text → Text
  | none => []
  | some title => ' ' :: '"' :: (escapeTitle title ++ ['"'])

/-- A link in the spelling in which links are written. -/
def writtenLink (angle : Bool) (label url : Text) (title : Option Text) : Text :=
  spelledLink angle label [] url (writtenTitle title) []

theorem linkText_eq (info : NodeInfo) (label : Text) {url : Text} (address : info.url = some url) :
    linkText info label = writtenLink (info.flag "angle") label url info.title := by
  unfold linkText writtenLink spelledLink roundBrackets writtenTitle
  rw [address]
  cases info.flag "angle" <;> cases info.title <;> simp [opening, closing]

theorem flag_linkInfo (position : Nat) (parts : LinkSyntax) :
    (linkInfo position parts).flag "angle" = parts.angle := by
  have other : (Text.ofString "angle" == Text.ofString "url_span") = false := by
    decide
  simp [NodeInfo.flag, NodeInfo.dataField?, Json.fieldOf?, linkInfo, urlSpanField,
    List.lookup_cons, other, Json.isEmpty]

theorem sourceText_link {info : NodeInfo} {children : List Node} {url : Text}
    (kind : info.kind = .link) (address : info.url = some url) :
    sourceText source (.mk info children) =
      writtenLink (info.flag "angle") (sourceTexts source children) url info.title := by
  rw [sourceText.eq_def]
  simp only [kind]
  exact linkText_eq info _ address

/-! ### Titles -/

section Titles

attribute [local simp] escapeTitle

theorem escapeTitle_escape (c : Char) (rest : Text) :
    escapeTitle ('\\' :: c :: rest) = '\\' :: c :: escapeTitle rest := by
  by_cases feed : c = '\n' <;> simp [feed]

theorem escapeTitle_quote (rest : Text) :
    escapeTitle ('"' :: rest) = '\\' :: '"' :: escapeTitle rest := by
  simp

theorem escapeTitle_char {c : Char} (plain : c ≠ '\\') (noQuote : c ≠ '"') (rest : Text) :
    escapeTitle (c :: rest) = c :: escapeTitle rest := by
  simp [plain, noQuote]

end Titles

/-- In a title between double quotes there is none left to escape. -/
theorem TitleText.escapeTitle_eq {title : Text} (text : TitleText '"' title) :
    escapeTitle title = title := by
  induction text with
  | nil =>
      rfl
  | escape c later hypothesis =>
      rw [escapeTitle_escape, hypothesis]
  | char plain inside later hypothesis =>
      rw [escapeTitle_char plain inside, hypothesis]

/-! ### The written spelling -/

/-- A link that is written in a source without spare white space: the destination stands directly
behind the round bracket, and behind it there is nothing or, after one space, a title in double
quotes. The place of the address tells where the label ends. -/
def Canonical (source : Text) (info : NodeInfo) : Prop :=
  ∃ start stop label url part,
    info.span = some (.ofNats start stop) ∧ info.url = some url ∧
    (Text.ofString "url_span",
      (Span.ofNats (start + label.length + 3 + (opening (info.flag "angle")).length)
        (start + label.length + 3 + (opening (info.flag "angle")).length + url.length)).toJson) ∈
          info.data ∧
    Text.slice source start stop = spelledLink (info.flag "angle") label [] url part [] ∧
    (part = [] ∨ ∃ title, part = ' ' :: '"' :: (title ++ ['"']))

theorem TitlePart.of_nil {title : Option Text} (titled : TitlePart title []) : title = none := by
  generalize same : ([] : Text) = part at titled
  cases titled with
  | absent blank =>
      rfl
  | present marks text blank blankAfter =>
      simp at same

theorem TitlePart.of_quoted {title : Option Text} {text : Text}
    (titled : TitlePart title (' ' :: '"' :: (text ++ ['"']))) :
    title = some text ∧ TitleText '"' text := by
  have noSpace : isLinkSpace '"' ≠ true := by
    decide
  generalize same : ' ' :: '"' :: (text ++ ['"']) = part at titled
  cases titled with
  | absent blank =>
      subst same
      exact absurd (blank '"' (by simp)) noSpace
  | @present before title after opens closes marks spelled blank blankAfter =>
      have solid := (titleCloser?_solid marks).1
      match before with
      | [] =>
          obtain ⟨rfl, -⟩ := List.cons.inj same
          cases solid
      | _ :: c :: _ =>
          obtain ⟨-, rest⟩ := List.cons.inj same
          obtain ⟨rfl, -⟩ := List.cons.inj rest
          exact absurd (blank '"' (by simp)) noSpace
      | [_] =>
          obtain ⟨-, rest⟩ := List.cons.inj same
          obtain ⟨rfl, inner⟩ := List.cons.inj rest
          obtain rfl : closes = '"' := by
            rcases titleCloser?_cases marks with ⟨opens, -⟩ | ⟨-, closes⟩ | ⟨opens, -⟩
            · cases opens
            · exact closes
            · cases opens
          obtain rfl | ⟨front, last, rfl⟩ := List.eq_nil_or_concat' after
          · obtain ⟨rfl, -⟩ := List.append_inj' inner rfl
            exact ⟨rfl, spelled⟩
          · rw [← List.cons_append, ← List.append_assoc] at inner
            obtain ⟨-, ends⟩ := List.append_inj' inner rfl
            obtain ⟨rfl, -⟩ := List.cons.inj ends
            exact absurd (blankAfter '"' (by simp)) noSpace

/-- A label that is longer by the white space behind the round bracket leaves room for none. -/
theorem LinkBlank.eq_nil_of_longer {blanks label longer behind rest : Text}
    (blank : LinkBlank blanks) (size : longer.length = label.length + blanks.length)
    (same : longer ++ ']' :: '(' :: behind = label ++ ']' :: '(' :: (blanks ++ rest)) :
    blanks = [] := by
  have fronts : longer ++ [']', '('] = label ++ [']', '('] ++ blanks := by
    have split : longer ++ [']', '('] ++ behind = label ++ [']', '('] ++ blanks ++ rest := by
      simpa using same
    refine (List.append_inj split ?_).1
    simp only [List.length_append, List.length_cons, List.length_nil]
    omega
  obtain rfl | ⟨front, last, rfl⟩ := List.eq_nil_or_concat' blanks
  · rfl
  · rw [← List.append_assoc, show longer ++ [']', '('] = longer ++ [']'] ++ ['('] by simp] at fronts
    obtain ⟨rfl, -⟩ := List.cons.inj (List.append_inj' fronts rfl).2
    exact absurd (blank '(' (by simp)) (by decide)

/-- A canonical link has no white space and no other title than the one it is written with. -/
theorem Canonical.spelling {parts : LinkSyntax} {label blanks part after : Text}
    (canonical : Canonical source (linkInfo position parts))
    (stands : source.StandsAt (spelledLink parts.angle label blanks parts.url part after) position)
    (spelling : Spelling parts label blanks part after) :
    blanks = [] ∧ part = writtenTitle parts.title := by
  obtain ⟨first, last, label', url, part', placed, address, field, spelled, quoted⟩ := canonical
  rw [flag_linkInfo] at field spelled
  obtain ⟨starts, stops⟩ : (position : Int) = first ∧ (position : Int) + parts.length = last := by
    simpa [linkInfo, Span.ofNats] using placed
  obtain rfl : position = first := by
    omega
  obtain rfl : position + parts.length = last := by
    omega
  obtain rfl : parts.url = url := Option.some.inj address
  have begins : label'.length = label.length + blanks.length := by
    have differs : Text.ofString "url_span" ≠ Text.ofString "angle" := by
      decide
    simp only [linkInfo, urlSpanField, List.mem_cons, Prod.mk.injEq, differs, false_and,
      List.not_mem_nil, or_false, true_and] at field
    have addressStarts := congrArg Span.start (Span.toJson_injective field)
    have measured := spelling.urlStart
    simp only [Span.ofNats] at addressStarts
    omega
  have written := stands.slice_take spelling.length_le
  rw [spelled, spelling.take_length] at written
  have same := (List.cons.inj written).2
  obtain rfl := spelling.blank.eq_nil_of_longer begins same
  obtain ⟨rfl, rest⟩ := List.append_inj same begins
  simp only [roundBrackets, List.nil_append, List.cons.injEq, true_and, List.append_cancel_left_eq,
    List.append_cancel_right_eq] at rest
  subst rest
  refine ⟨rfl, ?_⟩
  rcases quoted with rfl | ⟨title, rfl⟩
  · rw [spelling.title.of_nil]
    rfl
  · obtain ⟨titled, text⟩ := spelling.title.of_quoted
    rw [titled, writtenTitle, text.escapeTitle_eq]

theorem canonical_of_spelling {parts : LinkSyntax} {label after : Text}
    (stands : source.StandsAt
      (spelledLink parts.angle label [] parts.url (writtenTitle parts.title) after) position)
    (spelling : Spelling parts label [] (writtenTitle parts.title) after) :
    Canonical source (linkInfo position parts) := by
  have starts := spelling.urlStart
  have stops := spelling.urlStop
  rw [List.length_nil, Nat.add_zero] at starts
  refine ⟨position, position + parts.length, label, parts.url, writtenTitle parts.title, rfl, rfl,
    ?_, ?_, ?_⟩
  · rw [flag_linkInfo, Nat.add_assoc position, Nat.add_assoc position, Nat.add_assoc position,
      ← starts, ← stops]
    exact List.mem_cons_self
  · rw [flag_linkInfo, stands.slice_take spelling.length_le, spelling.take_length]
  · cases parts.title with
    | none =>
        exact .inl rfl
    | some title =>
        exact .inr ⟨escapeTitle title, rfl⟩

theorem TitlePart.eq_or_differ {title : Option Text} {part : Text} (titled : TitlePart title part)
    (t u : Text) :
    part = writtenTitle title ∨
      Text.Differ (writtenTitle title ++ ')' :: t) (part ++ ')' :: u) := by
  have noBracket : isLinkSpace ')' ≠ true ∧ isLinkSpace '"' ≠ true := by
    decide
  have apart {c d : Char} (space : isLinkSpace c = true) (solid : isLinkSpace d ≠ true) :
      d ≠ c := by
    rintro rfl
    exact solid space
  cases titled with
  | absent blank =>
      cases part with
      | nil =>
          exact .inl rfl
      | cons b part =>
          exact .inr (.of_head (apart (blank b List.mem_cons_self) noBracket.1) _ _)
  | @present before title after opens closes marks text blank blankAfter =>
      obtain ⟨solid, -⟩ := titleCloser?_solid marks
      match before with
      | [] =>
          refine .inr (.of_head ?_ _ _)
          rintro rfl
          cases solid
      | b :: c :: before =>
          by_cases space : ' ' = b
          · subst space
            refine .inr (Text.Differ.append_left [' '] (.of_head ?_ _ _))
            exact apart (blank c (by simp)) noBracket.2
          · exact .inr (.of_head space _ _)
      | [b] =>
          by_cases space : ' ' = b
          · subst space
            by_cases quote : '"' = opens
            · subst quote
              obtain rfl : closes = '"' := Option.some.inj marks.symm
              cases after with
              | nil =>
                  exact .inl (by simp [writtenTitle, text.escapeTitle_eq])
              | cons a after =>
                  have ends : Text.Differ (')' :: t) (a :: (after ++ ')' :: u)) :=
                    .of_head (apart (blankAfter a List.mem_cons_self) noBracket.1) _ _
                  have whole := ends.append_left (' ' :: '"' :: (title ++ ['"']))
                  exact .inr (by simpa [writtenTitle, text.escapeTitle_eq] using whole)
            · exact .inr (Text.Differ.append_left [' '] (.of_head quote _ _))
          · exact .inr (.of_head space _ _)

/-- The round brackets of a link differ from how they are written, if they are not written so. -/
theorem Spelling.differ {parts : LinkSyntax} {label blanks part after : Text}
    (spelling : Spelling parts label blanks part after)
    (other : ¬ (blanks = [] ∧ part = writtenTitle parts.title)) (t u : Text) :
    Text.Differ (roundBrackets parts.angle [] parts.url (writtenTitle parts.title) t)
      (roundBrackets parts.angle blanks parts.url part u) := by
  refine Text.Differ.append_left ['('] ?_
  cases blanks with
  | nil =>
      have titles := (spelling.title.eq_or_differ t u).resolve_left fun same => other ⟨rfl, same⟩
      have addressed := titles.append_left
        (opening parts.angle ++ (parts.url ++ closing parts.angle))
      simpa using addressed
  | cons b blanks =>
      have starts : ∃ d rest, opening parts.angle ++ (parts.url ++ (closing parts.angle ++
          (writtenTitle parts.title ++ ')' :: t))) = d :: rest ∧ isLinkSpace d = false := by
        have tight := spelling.tight
        have title := spelling.title
        have destination := spelling.destination
        generalize parts.angle = angle, parts.url = url at tight destination ⊢
        generalize part ++ ')' :: after = behind at destination
        cases destination with
        | angled free =>
            exact ⟨'<', _, rfl, by decide⟩
        | bare text ends unmarked =>
            cases url with
            | nil =>
                rw [tight rfl rfl] at title
                rw [title.of_nil]
                exact ⟨')', t, rfl, by decide⟩
            | cons d url =>
                exact ⟨d, _, rfl, text.head_solid d rfl⟩
      obtain ⟨d, rest, same, solid⟩ := starts
      rw [same]
      refine .of_head ?_ _ _
      rintro rfl
      rw [spelling.blank d List.mem_cons_self] at solid
      cases solid

/-! ### Restored texts -/

/-- The links in these nodes, at every depth, are written canonically. -/
def AllCanonical (source : Text) (nodes : List Node) : Prop :=
  ∀ node ∈ nodes, node.Every fun info => info.kind = .link → Canonical source info

/-- Nodes that stand for a text: with canonical links only, they are written like the text, and
otherwise the two differ. -/
def Restores (source : Text) (nodes : List Node) (t : Text) : Prop :=
  AllCanonical source nodes ∧ sourceTexts source nodes = t ∨
    ¬ AllCanonical source nodes ∧ Text.Differ (sourceTexts source nodes) t

namespace Restores

variable {nodes others : List Node} {t u : Text}

theorem iff (restores : Restores source nodes t) :
    sourceTexts source nodes = t ↔ AllCanonical source nodes := by
  rcases restores with ⟨canonical, same⟩ | ⟨other, differ⟩
  · exact iff_of_true same canonical
  · exact iff_of_false differ.ne other

theorem append (first : Restores source nodes t) (second : Restores source others u) :
    Restores source (nodes ++ others) (t ++ u) := by
  unfold Restores AllCanonical at *
  rw [List.forall_mem_append, sourceTexts_append]
  rcases first with ⟨canonical, same⟩ | ⟨other, differ⟩
  · rw [same]
    rcases second with ⟨canonicalToo, sameToo⟩ | ⟨other, differ⟩
    · exact .inl ⟨⟨canonical, canonicalToo⟩, congrArg _ sameToo⟩
    · exact .inr ⟨fun both => other both.2, differ.append_left t⟩
  · exact .inr ⟨fun both => other both.1, differ.append_right _ _⟩

theorem leaf {info : NodeInfo} (noLink : info.kind ≠ .link)
    (same : sourceText source (.mk info []) = t) : Restores source [.mk info []] t := by
  refine .inl ⟨?_, ?_⟩
  · exact List.forall_mem_singleton.mpr (.mk (fun link => absurd link noLink) (by simp))
  · rw [sourceTexts_cons, sourceTexts_nil, List.append_nil, same]

theorem flush (counted : start + pending.length = position)
    (stands : source.StandsAt pending.reverse start) :
    Restores source (flush position pending) pending.reverse := by
  refine .inl ⟨?_, sourceTexts_flush counted stands⟩
  unfold Inline.flush
  split
  · simp [AllCanonical]
  · exact List.forall_mem_singleton.mpr (.mk (by simp) (by simp))

/-- A link stands for itself when its children stand for its label. -/
theorem link {rest : Text} {parts : LinkSyntax} {children : List Node}
    (found : link? ('[' :: rest) = some parts) (stands : source.StandsAt ('[' :: rest) position)
    (labelled : Restores source children (rest.take parts.labelLength)) :
    Restores source [.mk (linkInfo position parts) children] (('[' :: rest).take parts.length) := by
  have single : AllCanonical source [.mk (linkInfo position parts) children] ↔
      Canonical source (linkInfo position parts) ∧ AllCanonical source children := by
    rw [AllCanonical, List.forall_mem_singleton]
    constructor
    · rintro ⟨own, below⟩
      exact ⟨own rfl, below⟩
    · rintro ⟨own, below⟩
      exact .mk (fun _ => own) below
  have written : sourceTexts source [.mk (linkInfo position parts) children] =
      writtenLink parts.angle (sourceTexts source children) parts.url parts.title := by
    rw [sourceTexts_cons, sourceTexts_nil, List.append_nil, sourceText_link rfl rfl, flag_linkInfo]
    rfl
  obtain ⟨label, blanks, part, after, spelled, spelling⟩ := exists_spelling found
  rw [spelling.take_labelLength spelled] at labelled
  rw [spelled] at stands ⊢
  rw [Restores, single, written, spelling.take_length, writtenLink]
  rcases labelled with ⟨canonical, same⟩ | ⟨other, differ⟩
  · rw [same]
    by_cases tight : blanks = [] ∧ part = writtenTitle parts.title
    · obtain ⟨rfl, rfl⟩ := tight
      exact .inl ⟨⟨canonical_of_spelling stands spelling, canonical⟩, rfl⟩
    · refine .inr ⟨fun both => tight (both.1.spelling stands spelling), ?_⟩
      have brackets := (spelling.differ tight [] []).append_left ('[' :: (label ++ [']']))
      simpa [spelledLink] using brackets
  · exact .inr ⟨fun both => other both.2,
      (differ.append_right (']' :: _) (']' :: _)).append_left ['[']⟩

end Restores

/-- The nodes of a text stand for the plain characters in front of it and for the text. -/
theorem restores_scanFrom {t : Text} (counted : start + pending.length = position)
    (stands : source.StandsAt (pending.reverse ++ t) start) :
    Restores source (scanFrom position pending t) (pending.reverse ++ t) := by
  induction t using scanFrom_induction generalizing start position pending with
  | nil =>
      rw [List.append_nil] at stands ⊢
      rw [scanFrom_nil]
      exact .flush counted stands
  | backslash =>
      have further : start + ('\\' :: pending).length = position + 1 := congrArg (· + 1) counted
      rw [scanFrom_backslash_end]
      simpa using Restores.flush further (by simpa using stands)
  | collects piece rest whole collected hypothesis =>
      rw [collected]
      simpa using hypothesis (counted_append counted piece) (by simpa using stands)
  | code rest value length found hypothesis =>
      have placed := stands.unread counted
      have positive := codeSpan?_length_pos found
      have within := codeSpan?_length_le found
      have later := @hypothesis [] _ _ (Nat.add_zero _) (placed.behind positive within)
      have here : Restores source [codeNode position value length] ((tick :: rest).take length) :=
        .leaf (by simp) (sourceText_codeNode placed within)
      rw [scanFrom_code found, ← Text.take_append_drop_pred positive]
      exact (Restores.flush counted stands.left).append (here.append later)
  | image rest parts found hypothesis =>
      have placed := stands.unread counted
      have fits := (link?_within (link?_of_imageLink? found)).1
      have later := @hypothesis [] _ _ (Nat.add_zero _) (placed.tail.drop fits)
      have here (label : Text) : Restores source [imageNode position label parts]
          (('!' :: rest).take (parts.length + 1)) :=
        .leaf (by simp) (sourceText_imageNode placed (Nat.succ_le_succ fits))
      rw [scanFrom_image found, ← Text.take_append_drop_pred (Nat.succ_pos parts.length)]
      exact (Restores.flush counted stands.left).append ((here _).append later)
  | link rest parts found labelHypothesis hypothesis =>
      have placed := stands.unread counted
      have positive : 0 < parts.length := Nat.zero_lt_of_lt (link?_label_lt found)
      have behind := placed.behind positive (link?_within found).1
      have labelled := placed.tail.take parts.labelLength
      have later := @hypothesis [] _ _ (Nat.add_zero _) behind
      have here := Restores.link found placed
        (@labelHypothesis [] _ _ (Nat.add_zero _) labelled)
      rw [scanFrom_link found, ← Text.take_append_drop_pred positive]
      exact (Restores.flush counted stands.left).append (here.append later)

/-- Writing the nodes of a region gives the region back exactly when every link of it is written
canonically, in the labels of links as well. -/
theorem scan_restores_iff {source : Text} {start stop : Nat} (inOrder : start ≤ stop)
    (within : stop ≤ source.length) :
    ∃ nodes, scan source start stop = .ok nodes ∧
      (sourceTexts source nodes = Text.slice source start stop ↔ AllCanonical source nodes) := by
  have restores : Restores source (scanFrom start [] (Text.slice source start stop))
      (Text.slice source start stop) :=
    restores_scanFrom (Nat.add_zero _) (Text.standsAt_slice (Nat.le_trans inOrder within))
  exact ⟨_, scan_eq_ok within, restores.iff⟩

/-- An item of a list: a link in the label of a link, and an image with white space that no link
may have. -/
theorem scan_restores_iff_nested :
    let source := Text.ofString "- [[b](c \"t\")](<e f>)![g]( h )"
    let text : Node := .mk { kind := .text, value := some ['b'], span := some ⟨4, 5⟩ } []
    let inner := linkInfo 3 ⟨1, ['c'], 4, 5, some ['t'], false, 10⟩
    let outer := linkInfo 2 ⟨10, Text.ofString "e f", 14, 17, none, true, 19⟩
    let image := imageNode 21 ['g'] ⟨1, ['h'], 5, 6, none, false, 8⟩
    let nodes : List Node := [.mk outer [.mk inner [text]], image]
    (2 ≤ 30 ∧ 30 ≤ source.length) ∧ scan source 2 30 = .ok nodes ∧
      AllCanonical source nodes ∧
      sourceTexts source nodes = Text.ofString "[[b](c \"t\")](<e f>)![g]( h )" := by
  intro source text inner outer image nodes
  have bounds : 2 ≤ 30 ∧ 30 ≤ source.length := by
    decide
  have outerFound : link? ('[' :: Text.ofString "[b](c \"t\")](<e f>)![g]( h )") =
      some ⟨10, Text.ofString "e f", 14, 17, none, true, 19⟩ := by
    decide +kernel
  have innerFound : link? ('[' :: Text.ofString "b](c \"t\")") =
      some ⟨1, ['c'], 4, 5, some ['t'], false, 10⟩ := by
    decide +kernel
  have imageFound : imageLink? (Text.ofString "[g]( h )") =
      some ⟨1, ['h'], 5, 6, none, false, 8⟩ := by
    decide +kernel
  have scanned : scan source 2 30 = .ok nodes := by
    change Except.ok (scanFrom 2 [] ('[' :: Text.ofString "[b](c \"t\")](<e f>)![g]( h )")) = _
    rw [scanFrom_link outerFound]
    change Except.ok ([] ++ .mk outer (scanFrom 3 [] ('[' :: Text.ofString "b](c \"t\")")) ::
      scanFrom 21 [] ('!' :: Text.ofString "[g]( h )")) = _
    rw [scanFrom_link innerFound, scanFrom_image imageFound]
    change Except.ok ([] ++ .mk outer ([] ++ .mk inner (scanFrom 4 [] ['b']) ::
      scanFrom 13 [] []) :: ([] ++ image :: scanFrom 30 [] [])) = _
    rw [scanFrom_char (by decide) (by decide) (by decide) (by decide), scanFrom_nil, scanFrom_nil,
      scanFrom_nil]
    rfl
  have innerCanonical : Canonical source inner :=
    ⟨3, 13, ['b'], ['c'], Text.ofString " \"t\"", rfl, rfl, .head _, by decide, .inr ⟨['t'], rfl⟩⟩
  have outerCanonical : Canonical source outer :=
    ⟨2, 21, Text.ofString "[b](c \"t\")", Text.ofString "e f", [], rfl, rfl, .head _, by decide,
      .inl rfl⟩
  have leaf {info : NodeInfo} (noLink : info.kind ≠ .link) :
      Node.Every (fun info => info.kind = .link → Canonical source info) (.mk info []) :=
    .mk (fun same => absurd same noLink) (by simp)
  have canonical : AllCanonical source nodes := by
    simp only [AllCanonical, nodes, List.forall_mem_cons]
    refine ⟨.mk (fun _ => outerCanonical) ?_, leaf (by decide), by simp⟩
    simp only [List.forall_mem_cons]
    refine ⟨.mk (fun _ => innerCanonical) ?_, by simp⟩
    simp only [List.forall_mem_cons]
    exact ⟨leaf (by decide), by simp⟩
  refine ⟨bounds, scanned, canonical, ?_⟩
  obtain ⟨found, same, restored⟩ := scan_restores_iff bounds.1 bounds.2
  rw [scanned] at same
  cases same
  exact restored.mpr canonical

end Inline

end MdxLocalization
