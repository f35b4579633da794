import MdxLocalization.Proofs.CodeSpans
import MdxLocalization.Proofs.InlineTiling

/-!
# How a link is spelled

A link is written as a label in square brackets and, directly behind it, round brackets with white
space, the destination, white space, and possibly a title between two marks with white space behind
it. `link?` answers with lengths and positions. `Spelling` says of the pieces of a text that they
are a link, and which of them the lengths and positions measure; the texts that are spelled in this
way are those that `link?` reads.
-/

namespace MdxLocalization

theorem Text.findChar?_eq_some_iff {p : Char → Bool} {t : Text} {n : Nat} :
    findChar? p t = some n ↔ ∃ before c rest, t = before ++ c :: rest ∧
      (∀ d ∈ before, p d = false) ∧ p c = true ∧ before.length = n := by
  induction t generalizing n with
  | nil =>
      simp [findChar?]
  | cons d t hypothesis =>
      rw [findChar?]
      constructor
      · intro found
        split at found
        · rename_i holds
          cases found
          exact ⟨[], d, t, rfl, by simp, holds, rfl⟩
        · rename_i fails
          obtain ⟨m, later, rfl⟩ := Option.map_eq_some_iff.mp found
          obtain ⟨before, c, rest, rfl, passed, holds, rfl⟩ := hypothesis.mp later
          exact ⟨d :: before, c, rest, rfl, List.forall_mem_cons.mpr ⟨by simpa using fails, passed⟩,
            holds, rfl⟩
      · rintro ⟨before, c, rest, same, passed, holds, rfl⟩
        cases before with
        | nil =>
            obtain ⟨rfl, rfl⟩ := List.cons.inj same
            rw [if_pos holds, List.length_nil]
        | cons e before =>
            obtain ⟨rfl, rfl⟩ := List.cons.inj same
            obtain ⟨fails, passed⟩ := List.forall_mem_cons.mp passed
            rw [if_neg (by simp [fails]), hypothesis.mpr ⟨before, c, rest, rfl, passed, holds, rfl⟩]
            rfl

namespace Inline

/-! ### White space -/

/-- Nothing but white space that may stand in the round brackets of a link. -/
def LinkBlank (t : Text) : Prop := ∀ c ∈ t, isLinkSpace c = true

theorem isBlank_of_isLinkSpace {c : Char} (space : isLinkSpace c = true) :
    Text.isBlank c = true := by
  simp only [isLinkSpace, Bool.or_eq_true, beq_iff_eq] at space
  rcases space with ((rfl | rfl) | rfl) | rfl <;> rfl

theorem skipLinkSpace_eq_self {c : Char} (solid : isLinkSpace c = false) (rest : Text) :
    skipLinkSpace (c :: rest) = c :: rest := by
  rw [skipLinkSpace, List.dropWhile_cons, solid]
  rfl

theorem skipLinkSpace_append {blanks : Text} (blank : LinkBlank blanks) (rest : Text) :
    skipLinkSpace (blanks ++ rest) = skipLinkSpace rest :=
  List.dropWhile_append_of_pos blank

theorem skipLinkSpace_spelled (t : Text) :
    ∃ blanks, t = blanks ++ skipLinkSpace t ∧ LinkBlank blanks ∧
      ∀ c ∈ (skipLinkSpace t).head?, isLinkSpace c = false := by
  refine ⟨t.takeWhile isLinkSpace, List.takeWhile_append_dropWhile.symm,
    List.all_eq_true.mp List.all_takeWhile, ?_⟩
  intro c first
  have solid := List.head?_dropWhile_not isLinkSpace t
  change (t.dropWhile isLinkSpace).head? = some c at first
  rw [first] at solid
  simpa using solid

/-! ### Labels -/

section Labels

variable {depth offset : Nat} {rest : Text}

attribute [local simp] labelStop?

theorem labelStop?_escape (c : Char) :
    labelStop? depth offset ('\\' :: c :: rest) = labelStop? depth (offset + 2) rest := by
  simp

theorem labelStop?_backslash_end : labelStop? depth offset ['\\'] = none := by
  simp

theorem labelStop?_open :
    labelStop? depth offset ('[' :: rest) = labelStop? (depth + 1) (offset + 1) rest := by
  simp

theorem labelStop?_close :
    labelStop? depth offset (']' :: rest) =
      if depth = 1 then some offset else labelStop? (depth - 1) (offset + 1) rest := by
  simp

theorem labelStop?_code {inner after : Text} (code : IsCode inner after) :
    labelStop? depth offset (tick :: (inner ++ tick :: after)) =
      labelStop? depth (offset + (inner.length + 2)) after := by
  obtain ⟨value, found⟩ := code
  have passed : (inner ++ tick :: after).drop (inner.length + 2 - 1) = after := by
    change (inner ++ tick :: after).drop (inner.length + 1) = after
    rw [List.drop_length_add_append]
    rfl
  rw [labelStop?.eq_def]
  dsimp only
  rw [if_neg (by decide), if_neg (by decide), if_neg (by decide), if_pos rfl, found]
  dsimp only
  rw [passed]

theorem labelStop?_tick (absent : codeSpan? (tick :: rest) = none) :
    labelStop? depth offset (tick :: rest) = labelStop? depth (offset + 1) rest := by
  rw [labelStop?.eq_def]
  dsimp only
  rw [if_neg (by decide), if_neg (by decide), if_neg (by decide), if_pos rfl, absent]

theorem labelStop?_char {c : Char} (plain : c ∉ ['\\', '[', ']', tick]) :
    labelStop? depth offset (c :: rest) = labelStop? depth (offset + 1) rest := by
  simp only [List.mem_cons, List.not_mem_nil, or_false, not_or] at plain
  rw [labelStop?.eq_def]
  dsimp only
  rw [if_neg plain.1, if_neg plain.2.1, if_neg plain.2.2.1, if_neg plain.2.2.2]

/-- The induction along a label: behind an escape, a code span, or another character. -/
@[elab_as_elim]
theorem label_induction {motive : Text → Prop} (nil : motive []) (backslash : motive ['\\'])
    (escape : ∀ c rest, motive rest → motive ('\\' :: c :: rest))
    (code : ∀ inner after, IsCode inner after → motive after →
      motive (tick :: (inner ++ tick :: after)))
    (char : ∀ c rest, c ≠ '\\' → (c = tick → codeSpan? (tick :: rest) = none) → motive rest →
      motive (c :: rest))
    (t : Text) : motive t := by
  induction size : t.length using Nat.strongRecOn generalizing t with
  | ind n hypothesis =>
      subst size
      have shorter (rest : Text) (less : rest.length < t.length) : motive rest :=
        hypothesis _ less rest rfl
      cases t with
      | nil =>
          exact nil
      | cons c rest =>
          by_cases escapes : c = '\\'
          · subst escapes
            cases rest with
            | nil =>
                exact backslash
            | cons d rest =>
                exact escape d rest (shorter rest (by simp only [List.length_cons]; omega))
          · have plain (absent : c = tick → codeSpan? (tick :: rest) = none) : motive (c :: rest) :=
              char c rest escapes absent (shorter rest (by simp))
            by_cases ticks : c = tick
            · subst ticks
              rcases codeSpan?_cases rest with absent | ⟨inner, after, rfl, found⟩
              · exact plain fun _ => absent
              · exact code inner after found (shorter after (by simp; omega))
            · exact plain fun same => absurd same ticks

theorem labelStop?_add (k : Nat) (t : Text) :
    labelStop? depth (offset + k) t = (labelStop? depth offset t).map (· + k) := by
  have swap (offset n : Nat) : offset + k + n = offset + n + k := by
    omega
  induction t using label_induction generalizing depth offset with
  | nil =>
      rw [labelStop?, labelStop?]
      rfl
  | backslash =>
      rw [labelStop?_backslash_end, labelStop?_backslash_end]
      rfl
  | escape c rest hypothesis =>
      rw [labelStop?_escape, labelStop?_escape, swap, hypothesis]
  | code inner after found hypothesis =>
      rw [labelStop?_code found, labelStop?_code found, swap, hypothesis]
  | char c rest noEscape absent hypothesis =>
      by_cases opens : c = '['
      · subst opens
        rw [labelStop?_open, labelStop?_open, swap, hypothesis]
      by_cases closes : c = ']'
      · subst closes
        rw [labelStop?_close, labelStop?_close]
        split
        · rfl
        · rw [swap, hypothesis]
      by_cases ticks : c = tick
      · subst ticks
        rw [labelStop?_tick (absent rfl), labelStop?_tick (absent rfl), swap, hypothesis]
      · have plain : c ∉ ['\\', '[', ']', tick] := by
          simp [noEscape, opens, closes, ticks]
        rw [labelStop?_char plain, labelStop?_char plain, swap, hypothesis]

theorem labelStop?_eq_map (t : Text) :
    labelStop? depth offset t = (labelStop? depth 0 t).map (· + offset) := by
  conv => lhs; rw [← Nat.zero_add offset]
  exact labelStop?_add offset t

/-- A label reaches up to a square bracket, and no escape in it takes the bracket along. -/
theorem exists_label {stop : Nat} {t : Text} (found : labelStop? depth 0 t = some stop) :
    ∃ label behind, t = label ++ ']' :: behind ∧ label.length = stop ∧ Text.Whole label := by
  -- What is read at once, be it a mark, an escape or a code span, belongs to the label.
  have extend (piece : Text) {depth : Nat} {rest : Text} {stop : Nat} (whole : piece.Whole)
      (hypothesis : ∀ {depth stop}, labelStop? depth 0 rest = some stop →
        ∃ label behind, rest = label ++ ']' :: behind ∧ label.length = stop ∧ Text.Whole label)
      (later : labelStop? depth (0 + piece.length) rest = some stop) :
      ∃ label behind, piece ++ rest = label ++ ']' :: behind ∧ label.length = stop ∧
        Text.Whole label := by
    rw [labelStop?_add] at later
    obtain ⟨size, read, rfl⟩ := Option.map_eq_some_iff.mp later
    obtain ⟨label, behind, rfl, rfl, wholeLabel⟩ := hypothesis read
    exact ⟨piece ++ label, behind, by simp, by simp [Nat.add_comm], whole.append wholeLabel⟩
  induction t using label_induction generalizing depth stop with
  | nil =>
      rw [labelStop?] at found
      cases found
  | backslash =>
      rw [labelStop?_backslash_end] at found
      cases found
  | escape c rest hypothesis =>
      rw [labelStop?_escape] at found
      exact extend ['\\', c] (.escape c .nil) hypothesis found
  | code inner after code hypothesis =>
      have size : (tick :: inner ++ [tick]).length = inner.length + 2 := by
        simp
      rw [labelStop?_code code, ← size] at found
      simpa using extend (tick :: inner ++ [tick]) (whole_code inner) hypothesis found
  | char c rest noEscape absent hypothesis =>
      have single : Text.Whole [c] := .singleton noEscape
      by_cases opens : c = '['
      · subst opens
        rw [labelStop?_open] at found
        exact extend ['['] single hypothesis found
      by_cases closes : c = ']'
      · subst closes
        rw [labelStop?_close] at found
        split at found
        · cases found
          exact ⟨[], rest, rfl, rfl, .nil⟩
        · exact extend [']'] single hypothesis found
      by_cases ticks : c = tick
      · subst ticks
        rw [labelStop?_tick (absent rfl)] at found
        exact extend [tick] single hypothesis found
      · have plain : c ∉ ['\\', '[', ']', tick] := by
          simp [noEscape, opens, closes, ticks]
        rw [labelStop?_char plain] at found
        exact extend [c] single hypothesis found

/-- The text in front of a closing bracket is a label when `depth` brackets are open before it.
What stands behind the bracket matters for the code spans. -/
def IsLabel (depth : Nat) (label behind : Text) : Prop :=
  labelStop? depth 0 (label ++ ']' :: behind) = some label.length

theorem IsLabel.whole {label behind : Text} (isLabel : IsLabel depth label behind) :
    Text.Whole label := by
  obtain ⟨same, after, split, size, whole⟩ := exists_label isLabel
  rwa [(List.append_inj split size.symm).1]

end Labels

/-! ### Titles -/

/-- The inside of a title with a given closing mark, which occurs in it behind backslashes only. -/
inductive TitleText (closing : Char) : Text → Prop where
  | nil : TitleText closing []
  | escape (c : Char) {rest : Text} (later : TitleText closing rest) :
      TitleText closing ('\\' :: c :: rest)
  | char {c : Char} {rest : Text} (plain : c ≠ '\\') (inside : c ≠ closing)
      (later : TitleText closing rest) : TitleText closing (c :: rest)

theorem TitleText.whole {closing : Char} {title : Text} (text : TitleText closing title) :
    Text.Whole title := by
  induction text with
  | nil =>
      exact .nil
  | escape c later hypothesis =>
      exact .escape c hypothesis
  | char plain inside later hypothesis =>
      exact .char plain hypothesis

theorem TitleText.titleLength?_eq {closing : Char} {title : Text} (text : TitleText closing title)
    (mark : closing ≠ '\\') (rest : Text) :
    titleLength? closing (title ++ closing :: rest) = some title.length := by
  induction text with
  | nil =>
      rw [List.nil_append, titleLength?.eq_def]
      simp
  | escape c later hypothesis =>
      rw [List.cons_append, List.cons_append, titleLength?.eq_def]
      simp [Ne.symm mark, hypothesis]
  | char plain inside later hypothesis =>
      rw [List.cons_append, titleLength?.eq_def]
      simp [inside, plain, hypothesis]

theorem exists_titleText {closing : Char} {t : Text} {n : Nat}
    (found : titleLength? closing t = some n) :
    ∃ title rest, t = title ++ closing :: rest ∧ title.length = n ∧ TitleText closing title := by
  match t with
  | [] =>
      rw [titleLength?] at found
      cases found
  | c :: rest =>
      rw [titleLength?.eq_def] at found
      dsimp only at found
      split at found
      · rename_i closes
        cases found
        exact ⟨[], rest, by rw [closes]; rfl, rfl, .nil⟩
      · rename_i inside
        split at found
        · rename_i escape
          subst escape
          cases rest with
          | nil =>
              cases found
          | cons d rest =>
              obtain ⟨size, later, rfl⟩ := Option.map_eq_some_iff.mp found
              obtain ⟨title, behind, rfl, rfl, text⟩ := exists_titleText later
              exact ⟨'\\' :: d :: title, behind, rfl, rfl, .escape d text⟩
        · rename_i plain
          obtain ⟨size, later, rfl⟩ := Option.map_eq_some_iff.mp found
          obtain ⟨title, behind, rfl, rfl, text⟩ := exists_titleText later
          exact ⟨c :: title, behind, rfl, rfl, .char plain inside text⟩

/-- What stands between the destination and the last bracket of a link: white space, or a title
between its marks with white space on both sides. -/
inductive TitlePart : Option Text → Text → Prop where
  | absent {blanks : Text} (blank : LinkBlank blanks) : TitlePart none blanks
  | present {before title after : Text} {opens closes : Char}
      (marks : titleCloser? opens = some closes) (text : TitleText closes title)
      (blank : LinkBlank before) (blankAfter : LinkBlank after) :
      TitlePart (some title) (before ++ opens :: (title ++ closes :: after))

theorem titleCloser?_cases {opens closes : Char} (marks : titleCloser? opens = some closes) :
    opens = '(' ∧ closes = ')' ∨ opens = '"' ∧ closes = '"' ∨ opens = '\'' ∧ closes = '\'' := by
  unfold titleCloser? at marks
  split at marks
  · rename_i round
    cases marks
    exact .inl ⟨round, rfl⟩
  · split at marks
    · rename_i quote
      cases marks
      rw [Bool.or_eq_true, decide_eq_true_eq, decide_eq_true_eq] at quote
      rcases quote with rfl | rfl
      · exact .inr (.inl ⟨rfl, rfl⟩)
      · exact .inr (.inr ⟨rfl, rfl⟩)
    · cases marks

/-- The marks of a title are neither white space nor backslashes. -/
theorem titleCloser?_solid {opens closes : Char} (marks : titleCloser? opens = some closes) :
    isLinkSpace opens = false ∧ closes ≠ '\\' := by
  rcases titleCloser?_cases marks with ⟨rfl, rfl⟩ | ⟨rfl, rfl⟩ | ⟨rfl, rfl⟩ <;> decide

theorem TitlePart.linkTail?_eq {title : Option Text} {part : Text} (spelled : TitlePart title part)
    (rest : Text) : linkTail? (skipLinkSpace (part ++ ')' :: rest)) = some (title, rest) := by
  have bracket : isLinkSpace ')' = false := by
    decide
  cases spelled with
  | absent blank =>
      rw [skipLinkSpace_append blank, skipLinkSpace_eq_self bracket]
      rfl
  | @present before title after opens closes marks text blank blankAfter =>
      obtain ⟨solid, mark⟩ := titleCloser?_solid marks
      have read := text.titleLength?_eq mark (after ++ ')' :: rest)
      have passed : (title ++ closes :: (after ++ ')' :: rest)).drop (title.length + 1) =
          after ++ ')' :: rest := by
        rw [List.drop_length_add_append]
        rfl
      rw [List.append_assoc, skipLinkSpace_append blank, List.cons_append, List.append_assoc,
        List.cons_append, skipLinkSpace_eq_self solid]
      simp only [linkTail?, marks, read, passed, skipLinkSpace_append blankAfter,
        skipLinkSpace_eq_self bracket, List.take_left']

theorem exists_titlePart {t rest : Text} {title : Option Text}
    (found : linkTail? (skipLinkSpace t) = some (title, rest)) :
    ∃ part, t = part ++ ')' :: rest ∧ TitlePart title part := by
  obtain ⟨before, split, blank, -⟩ := skipLinkSpace_spelled t
  generalize skipLinkSpace t = start at found split
  subst split
  unfold linkTail? at found
  split at found
  · cases found
  · rename_i c behind
    split at found
    · split at found
      · rename_i closes
        cases found
        exact ⟨before, by rw [closes], .absent blank⟩
      · cases found
    · rename_i closes marks
      split at found
      · cases found
      · rename_i length titled
        obtain ⟨text, after, rfl, rfl, spelled⟩ := exists_titleText titled
        have passed : (text ++ closes :: after).drop (text.length + 1) = after := by
          rw [List.drop_length_add_append]
          rfl
        rw [passed] at found
        split at found
        · rename_i tail ended
          obtain ⟨blanks, splitAfter, blankAfter, -⟩ := skipLinkSpace_spelled after
          rw [ended] at splitAfter
          cases found
          subst splitAfter
          refine ⟨before ++ c :: (text ++ closes :: blanks), by simp, ?_⟩
          rw [List.take_left']
          · exact .present marks spelled blank blankAfter
          · rfl
        · cases found

/-! ### Destinations -/

/-- A destination without angle brackets. Round brackets are counted: `depth` of them are open
before it, and `left` behind it. -/
inductive BareText : Nat → Nat → Text → Prop where
  | nil {depth : Nat} : BareText depth depth []
  | escape {depth left : Nat} (c : Char) {rest : Text} (later : BareText depth left rest) :
      BareText depth left ('\\' :: c :: rest)
  | opens {depth left : Nat} {rest : Text} (later : BareText (depth + 1) left rest) :
      BareText depth left ('(' :: rest)
  | closes {depth left : Nat} {rest : Text} (later : BareText depth left rest) :
      BareText (depth + 1) left (')' :: rest)
  | char {depth left : Nat} {c : Char} {rest : Text} (plain : c ∉ ['\\', '(', ')'])
      (solid : Text.isBlank c = false) (later : BareText depth left rest) :
      BareText depth left (c :: rest)

/-- The character behind a destination without angle brackets: white space, or a closing bracket
that no bracket of the destination has opened. -/
def EndsBare (left : Nat) (c : Char) : Prop := Text.isBlank c = true ∨ left = 0 ∧ c = ')'

theorem BareText.whole {depth left : Nat} {url : Text} (text : BareText depth left url) :
    Text.Whole url := by
  induction text with
  | nil =>
      exact .nil
  | escape c later hypothesis =>
      exact .escape c hypothesis
  | opens later hypothesis =>
      exact .char (by decide) hypothesis
  | closes later hypothesis =>
      exact .char (by decide) hypothesis
  | char plain solid later hypothesis =>
      exact .char (fun same => plain (by simp [same])) hypothesis

theorem BareText.bareLength_append {depth left : Nat} {url : Text}
    (text : BareText depth left url) (rest : Text) :
    bareLength depth (url ++ rest) = url.length + bareLength left rest := by
  induction text with
  | nil =>
      rw [List.nil_append, List.length_nil, Nat.zero_add]
  | escape c later hypothesis =>
      rw [List.cons_append, List.cons_append, bareLength.eq_def]
      simp only [hypothesis, List.length_cons]
      omega
  | opens later hypothesis =>
      rw [List.cons_append, bareLength.eq_def]
      simp [hypothesis, Text.isBlank]
      omega
  | closes later hypothesis =>
      rw [List.cons_append, bareLength.eq_def]
      simp [hypothesis, Text.isBlank]
      omega
  | char plain solid later hypothesis =>
      simp only [List.mem_cons, List.not_mem_nil, or_false, not_or] at plain
      rw [List.cons_append, bareLength.eq_def]
      simp [hypothesis, plain, solid]
      omega

theorem EndsBare.bareLength_eq {left : Nat} {c : Char} (ends : EndsBare left c) (rest : Text) :
    bareLength left (c :: rest) = 0 := by
  have noEscape : c ≠ '\\' := by
    rintro rfl
    rcases ends with blank | ⟨-, bracket⟩
    · exact absurd blank (by decide)
    · exact absurd bracket (by decide)
  rw [bareLength.eq_def]
  rcases ends with blank | ⟨rfl, rfl⟩
  · simp [noEscape, blank]
  · simp [Text.isBlank]

theorem exists_bareText {depth : Nat} {t : Text} (short : bareLength depth t < t.length) :
    ∃ left url c rest, t = url ++ c :: rest ∧ url.length = bareLength depth t ∧
      BareText depth left url ∧ EndsBare left c := by
  induction depth, t using bareLength.induct_unfolding with
  | case1 depth =>
      cases short
  | case2 depth d rest hypothesis =>
      obtain ⟨left, url, c, behind, rfl, size, text, ends⟩ :=
        hypothesis (by simp only [List.length_cons] at short; omega)
      exact ⟨left, '\\' :: d :: url, c, behind, rfl, congrArg (· + 2) size, .escape d text, ends⟩
  | case3 depth c rest noEscape blank =>
      exact ⟨depth, [], c, rest, rfl, rfl, .nil, .inl blank⟩
  | case4 depth rest noEscape solid hypothesis =>
      obtain ⟨left, url, c, behind, rfl, size, text, ends⟩ :=
        hypothesis (Nat.lt_of_succ_lt_succ short)
      exact ⟨left, '(' :: url, c, behind, rfl, congrArg (· + 1) size, .opens text, ends⟩
  | case5 rest noEscape solid noOpen =>
      exact ⟨0, [], ')', rest, rfl, rfl, .nil, .inr ⟨rfl, rfl⟩⟩
  | case6 depth rest inside noEscape solid noOpen hypothesis =>
      obtain ⟨left, url, c, behind, rfl, size, text, ends⟩ :=
        hypothesis (Nat.lt_of_succ_lt_succ short)
      refine ⟨left, ')' :: url, c, behind, rfl, congrArg (· + 1) size, ?_, ends⟩
      obtain ⟨before, rfl⟩ := Nat.exists_eq_succ_of_ne_zero inside
      exact .closes text
  | case7 depth d rest noEscape solid noOpen noClose hypothesis =>
      obtain ⟨left, url, c, behind, rfl, size, text, ends⟩ :=
        hypothesis (Nat.lt_of_succ_lt_succ short)
      refine ⟨left, d :: url, c, behind, rfl, congrArg (· + 1) size, ?_, ends⟩
      refine .char ?_ (by simpa using solid) text
      obtain ⟨e, others, filled⟩ : ∃ e others, url ++ c :: behind = e :: others :=
        List.exists_cons_of_ne_nil (by simp)
      simp only [List.mem_cons, List.not_mem_nil, or_false, not_or]
      exact ⟨fun same => noEscape e others same filled, noOpen, noClose⟩

/-- The marks around an address. -/
def opening (angle : Bool) : Text := if angle then ['<'] else []

def closing (angle : Bool) : Text := if angle then ['>'] else []

/-- A destination as it is written in front of a text. -/
inductive Destination : Bool → Text → Text → Prop where
  | angled {url behind : Text} (free : '>' ∉ url) : Destination true url behind
  | bare {left : Nat} {url rest : Text} {c : Char} (text : BareText 0 left url)
      (ends : EndsBare left c) (unmarked : url.head? ≠ some '<') :
      Destination false url (c :: rest)

theorem Destination.destination?_eq {angle : Bool} {url behind : Text}
    (spelled : Destination angle url behind) :
    destination? (opening angle ++ (url ++ (closing angle ++ behind))) =
      some (url, (opening angle).length, angle, behind) := by
  cases spelled with
  | angled free =>
      have found : Text.findChar? (· == '>') (url ++ '>' :: behind) = some url.length := by
        refine Text.findChar?_eq_some_iff.mpr ⟨url, '>', behind, rfl, ?_, rfl, rfl⟩
        intro c member
        rw [beq_eq_false_iff_ne]
        rintro rfl
        exact free member
      have passed : (url ++ '>' :: behind).drop (url.length + 1) = behind := by
        rw [List.drop_length_add_append]
        rfl
      simp [opening, closing, destination?, found, passed]
  | @bare left url rest c text ends unmarked =>
      have size : bareLength 0 (url ++ c :: rest) = url.length := by
        rw [text.bareLength_append, ends.bareLength_eq, Nat.add_zero]
      have noMark : (url ++ c :: rest).head? ≠ some '<' := by
        cases url with
        | nil =>
            rcases ends with blank | ⟨-, rfl⟩
            · rintro ⟨⟩
              exact absurd blank (by decide)
            · simp
        | cons d url =>
            exact unmarked
      change destination? (url ++ c :: rest) = some (url, 0, false, c :: rest)
      unfold destination?
      split
      · rename_i same
        rw [same] at noMark
        exact absurd rfl noMark
      · dsimp only
        rw [size, List.take_left', List.drop_left']
        · rfl
        · rfl

theorem exists_destination {t url behind : Text} {before : Nat} {angle : Bool}
    (found : destination? t = some (url, before, angle, behind)) (filled : behind ≠ []) :
    t = opening angle ++ (url ++ (closing angle ++ behind)) ∧ before = (opening angle).length ∧
      Destination angle url behind := by
  unfold destination? at found
  split at found
  · rename_i rest
    split at found
    · cases found
    · rename_i length found?
      obtain ⟨address, c, after, rfl, free, mark, rfl⟩ := Text.findChar?_eq_some_iff.mp found?
      have passed : (address ++ c :: after).drop (address.length + 1) = after := by
        rw [List.drop_length_add_append]
        rfl
      rw [List.take_left', passed] at found
      · cases found
        rw [beq_iff_eq] at mark
        subst mark
        refine ⟨rfl, rfl, .angled fun member => ?_⟩
        exact absurd (free '>' member) (by decide)
      · rfl
  · rename_i unmarked
    cases found
    have short : bareLength 0 t < t.length := by
      by_contra long
      exact filled (List.drop_of_length_le (Nat.not_lt.mp long))
    obtain ⟨left, address, c, rest, rfl, size, text, ends⟩ := exists_bareText short
    rw [← size, List.take_left', List.drop_left']
    · refine ⟨rfl, rfl, .bare text ends ?_⟩
      intro first
      cases address with
      | nil =>
          cases first
      | cons d address =>
          cases first
          exact unmarked _ rfl
    · rfl
    · rfl

/-! ### Links -/

/-- The round brackets of a link and the text behind them. -/
def roundBrackets (angle : Bool) (blanks url part after : Text) : Text :=
  '(' :: (blanks ++ (opening angle ++ (url ++ (closing angle ++ (part ++ ')' :: after)))))

/-- A link that is written out, and the text behind it. -/
def spelledLink (angle : Bool) (label blanks url part after : Text) : Text :=
  '[' :: (label ++ ']' :: roundBrackets angle blanks url part after)

/-- The pieces of a link and what they measure. A destination is empty only when nothing stands in
the round brackets but white space. -/
structure Spelling (parts : LinkSyntax) (label blanks part after : Text) : Prop where
  isLabel : IsLabel 1 label (roundBrackets parts.angle blanks parts.url part after)
  blank : LinkBlank blanks
  destination : Destination parts.angle parts.url (part ++ ')' :: after)
  tight : parts.angle = false → parts.url = [] → part = []
  title : TitlePart parts.title part
  labelLength : parts.labelLength = label.length
  urlStart : parts.urlStart = label.length + 3 + blanks.length + (opening parts.angle).length
  urlStop : parts.urlStop = parts.urlStart + parts.url.length
  length : parts.length = label.length + 4 + blanks.length + (opening parts.angle).length +
    parts.url.length + (closing parts.angle).length + part.length

theorem BareText.head_solid {depth left : Nat} {url : Text} (text : BareText depth left url) :
    ∀ c ∈ url.head?, isLinkSpace c = false := by
  have solidOf (c : Char) (solid : Text.isBlank c = false) : isLinkSpace c = false := by
    by_contra space
    rw [Bool.not_eq_false] at space
    rw [isBlank_of_isLinkSpace space] at solid
    cases solid
  cases text with
  | nil =>
      simp
  | escape c later =>
      simp [isLinkSpace]
  | opens later =>
      simp [isLinkSpace]
  | closes later =>
      simp [isLinkSpace]
  | char plain solid later =>
      rintro c ⟨⟩
      exact solidOf _ solid

variable {parts : LinkSyntax} {label blanks part after : Text}

/-- The white space in front of a destination ends with it. -/
theorem Spelling.skipLinkSpace_eq (spelling : Spelling parts label blanks part after) :
    skipLinkSpace (opening parts.angle ++ (parts.url ++ (closing parts.angle ++
        (part ++ ')' :: after)))) =
      opening parts.angle ++ (parts.url ++ (closing parts.angle ++ (part ++ ')' :: after))) := by
  obtain ⟨-, -, destination, tight, -, -, -, -, -⟩ := spelling
  generalize parts.angle = angle at destination tight ⊢
  generalize parts.url = url at destination tight ⊢
  generalize shape : part ++ ')' :: after = behind at destination ⊢
  cases destination with
  | angled free =>
      exact skipLinkSpace_eq_self (by decide) _
  | bare text ends unmarked =>
      cases url with
      | nil =>
          rw [tight rfl rfl] at shape
          rw [← shape]
          exact skipLinkSpace_eq_self (by decide) _
      | cons d url =>
          exact skipLinkSpace_eq_self (text.head_solid d rfl) _

theorem link?_of_spelling (spelling : Spelling parts label blanks part after) :
    link? (spelledLink parts.angle label blanks parts.url part after) = some parts := by
  have skipped := spelling.skipLinkSpace_eq
  obtain ⟨isLabel, blank, destination, tight, title, labelLength, urlStart, urlStop, length⟩ :=
    spelling
  have read := destination.destination?_eq
  have ended := title.linkTail?_eq after
  unfold spelledLink roundBrackets at *
  generalize behind : opening parts.angle ++ (parts.url ++ (closing parts.angle ++
    (part ++ ')' :: after))) = start at isLabel skipped read
  have size := congrArg List.length behind
  simp only [List.length_append, List.length_cons] at size
  have stops : labelStop? 0 0 ('[' :: (label ++ ']' :: '(' :: (blanks ++ start))) =
      some (label.length + 1) := by
    rw [labelStop?_open, labelStop?_eq_map, isLabel]
    rfl
  have passed : ('[' :: (label ++ ']' :: '(' :: (blanks ++ start))).drop (label.length + 1 + 1) =
      '(' :: (blanks ++ start) := by
    rw [List.drop_succ_cons, List.drop_length_add_append]
    rfl
  rw [link?, stops]
  simp only [passed, skipLinkSpace_append blank, skipped, read, ended]
  obtain ⟨partsLabel, partsUrl, partsStart, partsStop, partsTitle, partsAngle, partsLength⟩ := parts
  simp only [List.length_cons, List.length_append] at *
  simp only [Option.some.injEq, LinkSyntax.mk.injEq, true_and]
  omega

/-- Behind an empty destination there is no title: its mark would belong to the destination. -/
theorem TitlePart.eq_nil {title : Option Text} (titled : TitlePart title part)
    (destination : Destination false [] (part ++ ')' :: after))
    (solid : ∀ c ∈ (part ++ ')' :: after).head?, isLinkSpace c = false) : part = [] := by
  have spaceless {c : Char} {rest : Text} (same : part = c :: rest) : isLinkSpace c = false :=
    solid c (by rw [same]; rfl)
  cases titled with
  | absent blank =>
      cases part with
      | nil =>
          rfl
      | cons c part =>
          exact absurd (blank c List.mem_cons_self) (by simp [spaceless rfl])
  | @present before title behind opens closes marks text blank blankAfter =>
      cases before with
      | cons c before =>
          exact absurd (blank c List.mem_cons_self) (by simp [spaceless rfl])
      | nil =>
          cases destination with
          | bare bareText ends unmarked =>
              cases bareText
              rcases titleCloser?_cases marks with ⟨rfl, -⟩ | ⟨rfl, -⟩ | ⟨rfl, -⟩ <;>
                rcases ends with blank | ⟨-, same⟩ <;> contradiction

theorem exists_spelling {rest : Text} (found : link? ('[' :: rest) = some parts) :
    ∃ label blanks part after,
      '[' :: rest = spelledLink parts.angle label blanks parts.url part after ∧
      Spelling parts label blanks part after := by
  unfold link? at found
  split at found
  · cases found
  · rename_i labelStop stops
    rw [labelStop?_open, labelStop?_eq_map] at stops
    obtain ⟨_, read, rfl⟩ := Option.map_eq_some_iff.mp stops
    obtain ⟨label, behind, rfl, rfl, -⟩ := exists_label read
    have passed : ('[' :: (label ++ ']' :: behind)).drop (label.length + (0 + 1) + 1) = behind := by
      rw [List.drop_succ_cons, List.drop_length_add_append]
      rfl
    rw [passed] at found
    split at found
    · rename_i inside
      obtain ⟨blanks, skipped, blank, solid⟩ := skipLinkSpace_spelled inside
      generalize skipLinkSpace inside = start at found skipped solid
      subst skipped
      dsimp only at found
      split at found
      · cases found
      · rename_i url before angle afterUrl destination
        split at found
        · cases found
        · rename_i title after closed
          obtain ⟨part, rfl, titled⟩ := exists_titlePart closed
          obtain ⟨rfl, rfl, spelled⟩ := exists_destination destination (by simp)
          cases found
          refine ⟨label, blanks, part, after, rfl, read, blank, spelled, ?_, titled, ?_, ?_, rfl, ?_⟩
          · rintro rfl rfl
            exact titled.eq_nil spelled solid
          · dsimp only
            omega
          · simp only [List.length_cons, List.length_append]
            omega
          · simp only [List.length_cons, List.length_append]
            omega
    · cases found

theorem spelledLink_append (angle : Bool) (label blanks url part after rest : Text) :
    spelledLink angle label blanks url part after ++ rest =
      spelledLink angle label blanks url part (after ++ rest) := by
  simp [spelledLink, roundBrackets]

theorem Spelling.length_eq (spelling : Spelling parts label blanks part after) :
    (spelledLink parts.angle label blanks parts.url part []).length = parts.length := by
  rw [spelling.length, spelledLink, roundBrackets]
  simp only [List.length_cons, List.length_append, List.length_nil]
  omega

theorem Spelling.take_length (spelling : Spelling parts label blanks part after) :
    (spelledLink parts.angle label blanks parts.url part after).take parts.length =
      spelledLink parts.angle label blanks parts.url part [] := by
  conv => lhs; rw [← List.nil_append after, ← spelledLink_append]
  exact List.take_left' spelling.length_eq

theorem Spelling.length_le (spelling : Spelling parts label blanks part after) :
    parts.length ≤ (spelledLink parts.angle label blanks parts.url part after).length := by
  have size := congrArg List.length spelling.take_length
  rw [spelling.length_eq, List.length_take] at size
  omega

theorem Spelling.drop_length (spelling : Spelling parts label blanks part after) :
    (spelledLink parts.angle label blanks parts.url part after).drop parts.length = after := by
  conv => lhs; rw [← List.nil_append after, ← spelledLink_append]
  exact List.drop_left' spelling.length_eq

theorem Spelling.take_labelLength (spelling : Spelling parts label blanks part after) {rest : Text}
    (spelled : '[' :: rest = spelledLink parts.angle label blanks parts.url part after) :
    rest.take parts.labelLength = label := by
  rw [(List.cons.inj spelled).2, spelling.labelLength, List.take_left' rfl]

theorem whole_spelledLink (angle : Bool) (label blanks url part : Text) :
    (spelledLink angle label blanks url part []).Whole := by
  have ends : spelledLink angle label blanks url part [] =
      ('[' :: (label ++ ']' :: '(' :: (blanks ++ (opening angle ++ (url ++
        (closing angle ++ part)))))) ++ [')'] := by
    simp [spelledLink, roundBrackets]
  rw [ends]
  exact .concat _ (by decide)

theorem whole_take_link? {rest : Text} (found : link? ('[' :: rest) = some parts) :
    Text.Whole (('[' :: rest).take parts.length) := by
  obtain ⟨label, blanks, part, after, spelled, spelling⟩ := exists_spelling found
  rw [spelled, spelling.take_length]
  exact whole_spelledLink ..

theorem whole_take_imageLink? {rest : Text} (found : imageLink? rest = some parts) :
    Text.Whole (('!' :: rest).take (parts.length + 1)) := by
  obtain ⟨inner, rfl⟩ := exists_of_imageLink? found
  exact .char (by decide) (whole_take_link? (link?_of_imageLink? found))

/-- The pieces of a link, as the lengths of `link?_within` count them. -/
theorem link?_spelled {rest : Text} (found : link? ('[' :: rest) = some parts) :
    ∃ label blanks tail after,
      rest = label ++ ']' :: '(' :: (blanks ++ opening parts.angle ++ parts.url ++ tail ++ [')']) ++
        after ∧
      label.length = parts.labelLength ∧ (∀ c ∈ blanks, isLinkSpace c = true) ∧
      parts.urlStart = label.length + 3 + blanks.length + (opening parts.angle).length ∧
      parts.urlStop = parts.urlStart + parts.url.length ∧
      parts.length + after.length = rest.length + 1 := by
  obtain ⟨label, blanks, part, after, same, spelling⟩ := exists_spelling found
  obtain ⟨-, rfl⟩ := List.cons.inj same
  unfold roundBrackets
  refine ⟨label, blanks, closing parts.angle ++ part, after, by simp, spelling.labelLength.symm,
    spelling.blank, spelling.urlStart, spelling.urlStop, ?_⟩
  rw [spelling.length]
  simp only [List.length_cons, List.length_append]
  omega

end Inline

end MdxLocalization
