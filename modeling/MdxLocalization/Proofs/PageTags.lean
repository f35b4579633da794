import MdxLocalization.Page.Context
import MdxLocalization.Proofs.PrintedTags

/-!
# Tags on context pages

A context page is written from raw HTML in which tags have become spans. There a tag is read by its
shape alone: a name, then nothing or white space and any text without angle brackets. The scanner
of documents knows more: quotes and braces may hold an angle bracket, and the name may be followed
by an item without white space between them. So the two agree on a tag where what stands behind its
name has the simple shape. Elsewhere the page shows the tag as text, or a part of it, but for one
coincidence: the text up to a bracket in a value and the rest of the tag can have the shape of an
opening tag and of a closing tag.
-/

namespace MdxLocalization

namespace Page

open Jsx

variable {t tail inside name : Text} {closing : Bool} {span : String}

/-! ### The shape of a tag -/

/-- What may stand behind the name of a tag on a page: nothing, the slash of a tag that closes
itself, or white space and then any text. Angle brackets may not. -/
structure FitsPage (inside : Text) : Prop where
  free : ∀ c ∈ inside, c ≠ '<' ∧ c ≠ '>'
  starts : inside = [] ∨ inside = ['/'] ∨ ∃ c ∈ inside.head?, Text.isBlank c = true

/-- The text of a tag on a page. -/
def pageTag (closing : Bool) (name inside : Text) : Text :=
  '<' :: ((if closing then ['/'] else []) ++ (name ++ (inside ++ ['>'])))

/-- The span that a tag becomes. -/
def spanFor (closing selfClosing : Bool) : String :=
  if closing then "</span>" else if selfClosing then "<span></span>" else "<span>"

/-- Reads what stands behind the bracket, and the slash of a closing tag, that start a tag. -/
def spanBehind? (closing : Bool) : Text → Option (String × Text)
  | [] => none
  | c :: rest =>
    if !c.isUpper then none
    else
      let body := rest.dropWhile isNameRest
      let inside := body.takeWhile fun c => c != '<' && c != '>'
      match body.drop inside.length with
      | '>' :: tail =>
        if !(inside.isEmpty || inside == ['/'] || inside.head?.any Text.isBlank) then none
        else some (spanFor closing (inside.getLast? == some '/'), tail)
      | _ => none

theorem jsxSpan?_slash (rest : Text) : jsxSpan? ('<' :: '/' :: rest) = spanBehind? true rest := by
  cases rest <;> rfl

theorem jsxSpan?_open {c : Char} (other : c ≠ '/') (rest : Text) :
    jsxSpan? ('<' :: c :: rest) = spanBehind? false (c :: rest) := by
  rw [jsxSpan?]
  · rfl
  · intro others same
    exact other (List.cons.inj same).1

theorem FitsPage.ends_name (fits : FitsPage inside) (tail : Text) :
    ∃ c rest, inside ++ '>' :: tail = c :: rest ∧ isNameRest c = false := by
  rcases fits.starts with rfl | rfl | ⟨c, isHead, blank⟩
  · exact ⟨'>', tail, rfl, rfl⟩
  · exact ⟨'/', '>' :: tail, rfl, rfl⟩
  · obtain ⟨rest, rfl⟩ := List.head?_eq_some_iff.mp isHead
    exact ⟨c, rest ++ '>' :: tail, rfl, isNameRest_of_isBlank blank⟩

theorem fitsPage_iff : FitsPage inside ↔ (∀ c ∈ inside, (c != '<' && c != '>') = true) ∧
    (inside.isEmpty || inside == ['/'] || inside.head?.any Text.isBlank) = true := by
  have free : (∀ c ∈ inside, c ≠ '<' ∧ c ≠ '>') ↔
      ∀ c ∈ inside, (c != '<' && c != '>') = true := by
    simp
  have starts : (inside = [] ∨ inside = ['/'] ∨ ∃ c ∈ inside.head?, Text.isBlank c = true) ↔
      (inside.isEmpty || inside == ['/'] || inside.head?.any Text.isBlank) = true := by
    rw [Bool.or_eq_true, Bool.or_eq_true, List.isEmpty_iff, beq_iff_eq, Option.any_eq_true,
      or_assoc]
    rfl
  rw [← free, ← starts]
  exact ⟨fun fits => ⟨fits.free, fits.starts⟩, fun fits => ⟨fits.1, fits.2⟩⟩

theorem spanBehind?_eq_some_iff :
    spanBehind? closing t = some (span, tail) ↔
      ∃ name inside, IsElementName name ∧ FitsPage inside ∧ t = name ++ (inside ++ '>' :: tail) ∧
        span = spanFor closing (inside.getLast? == some '/') := by
  constructor
  · intro found
    unfold spanBehind? at found
    split at found
    · cases found
    rename_i c rest
    split at found
    · cases found
    rename_i upper
    dsimp only at found
    split at found
    · rename_i behind bracket
      split at found
      · cases found
      rename_i starts
      rw [Bool.not_eq_true, Bool.not_eq_false'] at upper starts
      cases found
      have nameParts := List.takeWhile_append_dropWhile (p := isNameRest) (l := rest)
      generalize rest.dropWhile isNameRest = body at *
      have parts := List.take_append_drop
        (body.takeWhile fun c => c != '<' && c != '>').length body
      rw [bracket, (List.prefix_iff_eq_take.mp (List.takeWhile_prefix _)).symm] at parts
      refine ⟨c :: rest.takeWhile isNameRest, _, ⟨c, _, rfl, upper, ?_⟩,
        fitsPage_iff.mpr ⟨?_, starts⟩, ?_, rfl⟩
      · exact List.all_eq_true.mp List.all_takeWhile
      · exact List.all_eq_true.mp List.all_takeWhile
      · rw [parts, List.cons_append, nameParts]
    · cases found
  · rintro ⟨name, inside, ⟨c, others, rfl, upper, all⟩, fits, rfl, rfl⟩
    obtain ⟨d, rest, behind, stops⟩ := fits.ends_name tail
    obtain ⟨free, starts⟩ := fitsPage_iff.mp fits
    obtain ⟨taken, -⟩ := Text.cut_append free (rfl : ('>' != '<' && '>' != '>') = false) tail
    have left : (others ++ (inside ++ '>' :: tail)).dropWhile isNameRest =
        inside ++ '>' :: tail := by
      rw [behind]
      exact (Text.cut_append all stops rest).2
    rw [List.cons_append, spanBehind?, upper, left]
    dsimp only
    rw [taken, List.drop_left, starts]
    rfl

theorem jsxSpan?_eq_some_iff :
    jsxSpan? t = some (span, tail) ↔
      ∃ closing name inside, IsElementName name ∧ FitsPage inside ∧
        t = pageTag closing name inside ++ tail ∧
        span = spanFor closing (inside.getLast? == some '/') := by
  constructor
  · intro found
    match t with
    | [] =>
        cases found
    | c :: rest =>
        by_cases bracket : c = '<'
        · subst bracket
          match rest with
          | [] =>
              cases found
          | d :: rest =>
              by_cases slash : d = '/'
              · subst slash
                rw [jsxSpan?_slash, spanBehind?_eq_some_iff] at found
                obtain ⟨name, inside, named, fits, rfl, rfl⟩ := found
                exact ⟨true, name, inside, named, fits, by simp [pageTag], rfl⟩
              · rw [jsxSpan?_open slash, spanBehind?_eq_some_iff] at found
                obtain ⟨name, inside, named, fits, same, rfl⟩ := found
                exact ⟨false, name, inside, named, fits, by simp [pageTag, same], rfl⟩
        · rw [jsxSpan?] at found
          · cases found
          · intro others same
            exact bracket (List.cons.inj same).1
  · rintro ⟨closing, name, inside, named, fits, rfl, rfl⟩
    have behind : spanBehind? closing (name ++ (inside ++ '>' :: tail)) =
        some (spanFor closing (inside.getLast? == some '/'), tail) :=
      spanBehind?_eq_some_iff.mpr ⟨name, inside, named, fits, rfl, rfl⟩
    cases closing with
    | true =>
        have text : pageTag true name inside ++ tail =
            '<' :: '/' :: (name ++ (inside ++ '>' :: tail)) := by
          simp [pageTag]
        rw [text, jsxSpan?_slash]
        exact behind
    | false =>
        have text : pageTag false name inside ++ tail =
            '<' :: (name ++ (inside ++ '>' :: tail)) := by
          simp [pageTag]
        obtain ⟨c, others, rfl, upper, -⟩ := named
        have slash : c ≠ '/' := by
          rintro rfl
          cases upper
        rw [text, List.cons_append, jsxSpan?_open slash]
        exact behind

/-! ### Writing a text with spans -/

theorem spansForTags_nil (skip : Nat) : spansForTags skip [] = [] := rfl

theorem spansForTags_cons (c : Char) (t : Text) :
    spansForTags 0 (c :: t) =
      match jsxSpan? (c :: t) with
      | some (span, tail) => Text.ofString span ++ spansForTags (t.length - tail.length) t
      | none => c :: spansForTags 0 t := rfl

theorem spansForTags_skip (n : Nat) (t : Text) : spansForTags n t = spansForTags 0 (t.drop n) := by
  induction t generalizing n with
  | nil =>
      rw [List.drop_nil, spansForTags_nil, spansForTags_nil]
  | cons c t hypothesis =>
      cases n with
      | zero =>
          rfl
      | succ n =>
          exact hypothesis n

theorem spansForTags_tag (found : jsxSpan? t = some (span, tail)) :
    spansForTags 0 t = Text.ofString span ++ spansForTags 0 tail := by
  obtain ⟨closing, name, inside, -, -, text, -⟩ := jsxSpan?_eq_some_iff.mp found
  obtain ⟨front, parts⟩ : ∃ front, t = '<' :: (front ++ tail) := ⟨_, text⟩
  rw [parts] at found ⊢
  rw [spansForTags_cons, found]
  dsimp only
  rw [spansForTags_skip, List.length_append, Nat.add_sub_cancel, List.drop_left]

theorem spansForTags_char {c : Char} (none : jsxSpan? (c :: t) = none) :
    spansForTags 0 (c :: t) = c :: spansForTags 0 t := by
  rw [spansForTags_cons, none]

theorem spansForTags_of_upper {c : Char} (upper : c.isUpper = true) (t : Text) :
    spansForTags 0 (c :: t) = c :: spansForTags 0 t := by
  apply spansForTags_char
  cases found : jsxSpan? (c :: t) with
  | none =>
      rfl
  | some result =>
      obtain ⟨closing, name, inside, -, -, text, -⟩ := jsxSpan?_eq_some_iff.mp found
      rw [(List.cons.inj text).1] at upper
      cases upper

/-- A span starts with an angle bracket, and with the slash or the letter behind it. -/
theorem exists_spanFor (closing selfClosing : Bool) :
    ∃ rest, Text.ofString (spanFor closing selfClosing) =
      '<' :: (if closing then '/' else 's') :: rest := by
  cases closing <;> cases selfClosing <;> exact ⟨_, rfl⟩

/-- A text that is written without an angle bracket has no tag. -/
theorem eq_of_spansForTags {u : Text} (free : '<' ∉ u) (written : spansForTags 0 t = u) :
    t = u := by
  induction t generalizing u with
  | nil =>
      rw [← written, spansForTags_nil]
  | cons c t hypothesis =>
      cases found : jsxSpan? (c :: t) with
      | none =>
          rw [spansForTags_char found] at written
          subst written
          exact congrArg (c :: ·) (hypothesis (List.not_mem_of_not_mem_cons free) rfl)
      | some result =>
          obtain ⟨closing, name, inside, -, -, -, isSpan⟩ := jsxSpan?_eq_some_iff.mp found
          obtain ⟨rest, starts⟩ := exists_spanFor closing (inside.getLast? == some '/')
          rw [spansForTags_tag found, isSpan, starts] at written
          subst written
          exact absurd List.mem_cons_self free

/-- Only a closing tag, or the span itself, is written as the end of a span. -/
theorem spansForTags_eq_close_iff :
    spansForTags 0 t = Text.ofString "</span>" ↔
      t = Text.ofString "</span>" ∨ ∃ name inside, IsElementName name ∧ FitsPage inside ∧
        t = pageTag true name inside := by
  constructor
  · intro written
    cases t with
    | nil =>
        cases written
    | cons c t =>
        cases found : jsxSpan? (c :: t) with
        | none =>
            rw [spansForTags_char found] at written
            obtain ⟨rfl, behind⟩ := List.cons.inj written
            exact Or.inl (congrArg _ (eq_of_spansForTags (by decide) behind))
        | some result =>
            obtain ⟨closing, name, inside, named, fits, text, isSpan⟩ :=
              jsxSpan?_eq_some_iff.mp found
            rw [spansForTags_tag found, isSpan] at written
            cases closing with
            | true =>
                have nothing := List.append_cancel_left (written.trans (List.append_nil _).symm)
                rw [eq_of_spansForTags List.not_mem_nil nothing, List.append_nil] at text
                exact Or.inr ⟨name, inside, named, fits, text⟩
            | false =>
                obtain ⟨rest, starts⟩ := exists_spanFor false (inside.getLast? == some '/')
                rw [starts] at written
                exact absurd (List.cons.inj (List.cons.inj written).2).1 (by decide)
  · rintro (rfl | ⟨name, inside, named, fits, rfl⟩)
    · rfl
    · have found := jsxSpan?_eq_some_iff.mpr ⟨true, name, inside, named, fits,
        (List.append_nil (pageTag true name inside)).symm, rfl⟩
      rw [spansForTags_tag found, spansForTags_nil]
      exact List.append_nil _

end Page

namespace Jsx

variable {t u rest name : Text} {stop : Nat}

/-! ### Tags that span a text -/

/-- A text leads up to another one, with a character before it that is no slash. -/
def LeadsUpTo (t rest : Text) : Prop := ∃ front c, t = front ++ c :: rest ∧ c ≠ '/'

theorem LeadsUpTo.append (leads : LeadsUpTo t rest) (front : Text) :
    LeadsUpTo (front ++ t) rest := by
  obtain ⟨before, c, rfl, noSlash⟩ := leads
  exact ⟨front ++ before, c, (List.append_assoc _ _ _).symm, noSlash⟩

theorem leadsUpTo_of_afterBraces {depth : Nat} {quote : Option Char}
    (found : afterBraces depth quote t = .found rest) : LeadsUpTo t rest := by
  induction t generalizing depth quote with
  | nil =>
      rw [afterBraces] at found
      split at found <;> cases found
  | cons c t hypothesis =>
      have later {depth : Nat} {quote : Option Char}
          (found : afterBraces depth quote t = .found rest) : LeadsUpTo (c :: t) rest :=
        (hypothesis found).append [c]
      rw [afterBraces.eq_def] at found
      dsimp only at found
      split at found
      · exact later found
      split at found
      · exact later found
      split at found
      · exact later found
      split at found
      · rename_i closes
        split at found
        · cases found
          exact ⟨[], c, rfl, by rw [closes]; decide⟩
        · exact later found
      · exact later found

/-- A name stands in front of what is left, and has no slash. -/
theorem leadsUpTo_of_name {c : Char} (starts : isAttributeStart c = true)
    (others : ∀ d ∈ name, isAttributeRest d = true) (rest : Text) :
    LeadsUpTo (c :: (name ++ rest)) rest := by
  cases List.eq_nil_or_concat name with
  | inl empty =>
      subst empty
      refine ⟨[], c, rfl, ?_⟩
      rintro rfl
      cases starts
  | inr split =>
      obtain ⟨front, d, rfl⟩ := split
      refine ⟨c :: front, d, by simp, ?_⟩
      rintro rfl
      cases others '/' (by simp)

theorem leadsUpTo_of_readAttribute {a : JsxAttribute}
    (found : readAttribute stop t = .found (a, rest)) : LeadsUpTo t rest := by
  unfold readAttribute at found
  split at found
  · cases found
  rename_i c first
  have parts := List.takeWhile_append_dropWhile (p := isAttributeRest) (l := first)
  dsimp only at found
  split at found
  · rename_i starts
    split at found
    · cases found
    · cases found
    · rename_i quote body assigned
      rw [assigned] at parts
      have behind (value : LeadsUpTo (quote :: body) rest) : LeadsUpTo (c :: first) rest := by
        have whole := value.append (c :: first.takeWhile isAttributeRest ++ ['='])
        rwa [List.append_assoc, List.cons_append, List.singleton_append, parts] at whole
      split at found
      · rename_i quoted
        split at found
        · cases found
        · rename_i length closing
          cases found
          obtain ⟨value, d, after, rfl, -, same, rfl⟩ := Text.findChar?_eq_some_iff.mp closing
          rw [beq_iff_eq] at same
          subst same
          refine behind ⟨d :: value, d, ?_, ?_⟩
          · rw [List.drop_length_add_append]
            rfl
          · rintro rfl
            cases quoted
      · split at found
        · split at found
          · rename_i braces
            cases found
            exact behind (leadsUpTo_of_afterBraces braces)
          · cases found
          · cases found
        · cases found
    · cases found
      have all : ∀ d ∈ first.takeWhile isAttributeRest, isAttributeRest d = true :=
        List.all_eq_true.mp List.all_takeWhile
      have bare := leadsUpTo_of_name starts all (first.dropWhile isAttributeRest)
      rwa [parts] at bare
  · cases found

/-- A text ends with a mark, and no slash stands before that. -/
def EndsWith (mark t : Text) : Prop := ∃ middle, t = middle ++ mark ∧ middle.getLast? ≠ some '/'

theorem EndsWith.ne_nil {selfClosing : Bool} (ends : EndsWith (closingMark selfClosing) t) :
    t ≠ [] := by
  obtain ⟨middle, rfl, -⟩ := ends
  cases selfClosing <;> exact List.append_ne_nil_of_right_ne_nil middle (List.cons_ne_nil _ _)

theorem LeadsUpTo.endsWith {mark : Text} (leads : LeadsUpTo t rest) (ends : EndsWith mark rest) :
    EndsWith mark t := by
  obtain ⟨front, c, rfl, noSlash⟩ := leads
  obtain ⟨middle, rfl, last⟩ := ends
  refine ⟨front ++ c :: middle, by simp, ?_⟩
  rw [List.getLast?_append, List.getLast?_cons]
  generalize middle.getLast? = final at last ⊢
  cases final with
  | none =>
      simpa using noSlash
  | some d =>
      simpa using last

theorem EndsWith.append_blank {mark gap : Text} (blank : ∀ c ∈ gap, Text.isBlank c = true)
    (ends : EndsWith mark t) : EndsWith mark (gap ++ t) := by
  cases List.eq_nil_or_concat gap with
  | inl empty =>
      rwa [empty]
  | inr split =>
      obtain ⟨front, c, rfl⟩ := split
      refine LeadsUpTo.endsWith ⟨front, c, by simp, ?_⟩ ends
      rintro rfl
      cases blank '/' (by simp)

/-- A tag that spans the whole text of which it was read ends with its mark. -/
theorem tagBody_whole {following : Option Char} {start budget : Nat}
    {attributes : List JsxAttribute} {tag : JsxTag} (inside : t.length ≤ stop)
    (found : tagBody following start stop name budget attributes t = .found tag)
    (whole : tag.span = Span.ofNats start stop) :
    tag.name = name ∧ EndsWith (closingMark tag.selfClosing) t := by
  induction budget generalizing attributes t with
  | zero =>
      cases found
  | succ budget hypothesis =>
      have gapBlank : ∀ c ∈ t.takeWhile Text.isBlank, Text.isBlank c = true :=
        List.all_eq_true.mp List.all_takeWhile
      have parts := List.takeWhile_append_dropWhile (p := Text.isBlank) (l := t)
      generalize left : t.dropWhile Text.isBlank = behind at parts
      have shorter := congrArg List.length parts
      rw [List.length_append] at shorter
      rw [← parts]
      have closed {selfClosing : Bool} {tagStop : Nat}
          (same : closedTag name start tagStop selfClosing attributes = tag) :
          tagStop = stop ∧ tag.name = name ∧ tag.selfClosing = selfClosing := by
        subst same
        have ends := congrArg Span.stop whole
        exact ⟨Int.ofNat.inj ends, rfl, rfl⟩
      have marked (selfClosing : Bool) {rest : Text}
          (marks : behind = closingMark selfClosing ++ rest)
          (same : closedTag name start
            (stop - behind.length + (closingMark selfClosing).length) selfClosing attributes =
              tag) :
          tag.name = name ∧
            EndsWith (closingMark tag.selfClosing) (t.takeWhile Text.isBlank ++ behind) := by
        obtain ⟨atEnd, named, kind⟩ := closed same
        have sizes := congrArg List.length marks
        rw [List.length_append] at sizes
        have ended : rest = [] := List.length_eq_zero_iff.mp (by omega)
        rw [kind, marks, ended, List.append_nil]
        exact ⟨named, EndsWith.append_blank gapBlank ⟨[], rfl, nofun⟩⟩
      have further {attributes : List JsxAttribute} {rest : Text} (leads : LeadsUpTo behind rest)
          (found : tagBody following start stop name budget attributes rest = .found tag) :
          tag.name = name ∧
            EndsWith (closingMark tag.selfClosing) (t.takeWhile Text.isBlank ++ behind) := by
        have fits : rest.length ≤ stop := by
          obtain ⟨front, c, rfl, -⟩ := leads
          simp only [List.length_append, List.length_cons] at shorter
          omega
        obtain ⟨named, ends⟩ := hypothesis fits found
        exact ⟨named, (leads.endsWith ends).append_blank gapBlank⟩
      cases tagRest behind with
      | nothing =>
          rw [tagBody_nil left] at found
          cases found
      | bracket rest =>
          rw [tagBody_bracket left] at found
          exact marked false rfl (Outcome.found.inj found)
      | selfClosing rest =>
          rw [tagBody_slash_bracket left] at found
          exact marked true rfl (Outcome.found.inj found)
      | slash =>
          -- The mark ends behind the text.
          rw [tagBody_slash left] at found
          split at found
          · obtain ⟨atEnd, -, -⟩ := closed (Outcome.found.inj found)
            simp only [List.length_singleton] at shorter
            omega
          · cases found
      | brace rest =>
          rw [tagBody_brace left] at found
          split at found
          · rename_i braces
            exact further (leadsUpTo_of_afterBraces braces) found
          · cases found
          · cases found
      | other noBracket noBrace noMark =>
          rw [tagBody_attribute left noBracket noBrace noMark] at found
          split at found
          · rename_i read
            exact further (leadsUpTo_of_readAttribute read) found
          · cases found
          · cases found

/-- The name of a tag stands behind its bracket, and goes as far as it can. -/
theorem exists_body_of_tagName? (isName : tagName? t = some name) :
    ∃ body, t = '<' :: (name ++ body) ∧ t.drop (name.length + 1) = body ∧
      ∀ c ∈ body.head?, isNameRest c = false := by
  unfold tagName? at isName
  split at isName
  · rename_i c rest
    split at isName
    · cases isName
      have parts := List.takeWhile_append_dropWhile (p := isNameRest) (l := rest)
      have stops := List.head?_dropWhile_not isNameRest rest
      generalize rest.dropWhile isNameRest = body at parts stops
      generalize rest.takeWhile isNameRest = others at parts
      subst parts
      refine ⟨body, rfl, List.drop_left, fun d isHead => ?_⟩
      rw [Option.mem_def.mp isHead] at stops
      exact stops
    · cases isName
  · cases isName

theorem readRegion_of_readTagWithin {start : Nat} {tag : JsxTag}
    (read : readTagWithin t start stop = .ok (some tag)) :
    readRegion t start stop = .found tag := by
  unfold readTagWithin at read
  split at read
  · rename_i found
    rwa [Option.some.inj (Except.ok.inj read)] at found
  · cases read
  · split at read <;> cases read

/-- A tag that spans the whole text is a bracket, its name, and a text that ends with its mark. -/
theorem whole_of_readTagWithin {tag : JsxTag}
    (read : readTagWithin t 0 t.length = .ok (some tag))
    (whole : tag.span = Span.ofNats 0 t.length) :
    IsElementName tag.name ∧ ∃ body, t = '<' :: (tag.name ++ body) ∧
      EndsWith (closingMark tag.selfClosing) body ∧ ∀ c ∈ body.head?, isNameRest c = false := by
  have region : Text.slice t 0 t.length = t := List.take_length
  have found := readRegion_of_readTagWithin read
  rw [readRegion, region] at found
  split at found
  · cases found
  rename_i name isName
  obtain ⟨body, text, behind, stops⟩ := exists_body_of_tagName? isName
  have shorter : body.length ≤ t.length := by
    rw [← behind, List.length_drop]
    exact Nat.sub_le _ _
  rw [Nat.zero_add, behind] at found
  obtain ⟨rfl, ends⟩ := tagBody_whole shorter found whole
  exact ⟨isElementName_of_tagName? isName, body, text, ends, stops⟩

theorem EndsWith.isClosing {inside : Text} {selfClosing : Bool}
    (ends : EndsWith (closingMark selfClosing) (inside ++ ['>'])) :
    (inside.getLast? == some '/') = selfClosing := by
  obtain ⟨middle, same, last⟩ := ends
  cases selfClosing with
  | true =>
      have slash : inside = middle ++ ['/'] := by
        apply List.append_cancel_right (same.trans ?_)
        rw [List.append_assoc]
        rfl
      rw [slash, List.getLast?_concat]
      rfl
  | false =>
      rw [List.append_cancel_right same]
      simpa using last

end Jsx

namespace Page

open Jsx

variable {t tail inside name : Text} {closing : Bool} {tag : JsxTag}

/-! ### Tags as spans -/

/-- A tag on a page at the start of a text has the name that stands there, and what is behind the
name is cut into the inside of the tag and the rest. -/
theorem eq_of_pageTag {own body : Text} {c : Char} (named : IsElementName own)
    (stops : isNameRest c = false) (other : IsElementName name) (fits : FitsPage inside)
    (same : '<' :: (own ++ c :: body) = pageTag closing name inside ++ tail) :
    closing = false ∧ name = own ∧ c :: body = inside ++ '>' :: tail := by
  obtain ⟨d, others, rfl, upper, all⟩ := named
  obtain ⟨e, more, rfl, -, allMore⟩ := other
  cases closing with
  | true =>
      have slash : d = '/' := (List.cons.inj (List.cons.inj same).2).1
      rw [slash] at upper
      cases upper
  | false =>
      obtain ⟨f, rest, behind, ends⟩ := fits.ends_name tail
      have text : pageTag false (e :: more) inside ++ tail =
          '<' :: e :: (more ++ (inside ++ '>' :: tail)) := by
        simp [pageTag]
      rw [text, behind] at same
      obtain ⟨rfl, behindName⟩ := List.cons.inj (List.cons.inj same).2
      obtain ⟨taken, left⟩ := Text.cut_append all stops body
      obtain ⟨takenMore, leftMore⟩ := Text.cut_append allMore ends rest
      rw [show others ++ c :: body = more ++ f :: rest from behindName] at taken left
      refine ⟨rfl, congrArg (d :: ·) (takenMore.symm.trans taken), ?_⟩
      rw [behind]
      exact left.symm.trans leftMore

/-- The span of an opening tag is completed to one of a tag only by the end of a span. -/
theorem spanFor_append_eq {first second : Bool} {rest : Text}
    (same : Text.ofString (spanFor false first) ++ rest = Text.ofString (spanFor false second)) :
    first = second ∧ rest = [] ∨
      second = true ∧ first = false ∧ rest = Text.ofString "</span>" := by
  have shown : Text.ofString (spanFor false true) =
      Text.ofString (spanFor false false) ++ Text.ofString "</span>" := rfl
  by_cases agree : first = second
  · subst agree
    exact Or.inl ⟨rfl, List.append_cancel_left (same.trans (List.append_nil _).symm)⟩
  cases first with
  | true =>
      rw [Bool.eq_false_iff.mpr (Ne.symm agree), shown, List.append_assoc] at same
      have nothing := List.append_cancel_left (same.trans (List.append_nil _).symm)
      exact absurd (List.append_eq_nil_iff.mp nothing).1 (List.cons_ne_nil _ _)
  | false =>
      have closes : second = true := Bool.ne_false_iff.mp (Ne.symm agree)
      rw [closes, shown] at same
      exact Or.inr ⟨closes, rfl, List.append_cancel_left same⟩

/-- A text that starts with a name is written as a span if it is one tag, or if it is an opening tag
and a text that is written as the end of the span. -/
theorem spansForTags_eq_span_iff {own : Text} {c : Char} (named : IsElementName own)
    (stops : isNameRest c = false) (body : Text) (selfClosing : Bool) :
    spansForTags 0 ('<' :: (own ++ c :: body)) = Text.ofString (spanFor false selfClosing) ↔
      (∃ inside, FitsPage inside ∧ c :: body = inside ++ ['>'] ∧
        (inside.getLast? == some '/') = selfClosing) ∨
      selfClosing = true ∧ ∃ inside rest, FitsPage inside ∧
        (inside.getLast? == some '/') = false ∧ c :: body = inside ++ '>' :: rest ∧
        spansForTags 0 rest = Text.ofString "</span>" := by
  have opened {inside rest : Text} (fits : FitsPage inside)
      (same : c :: body = inside ++ '>' :: rest) :
      spansForTags 0 ('<' :: (own ++ c :: body)) =
        Text.ofString (spanFor false (inside.getLast? == some '/')) ++ spansForTags 0 rest := by
    refine spansForTags_tag (jsxSpan?_eq_some_iff.mpr ⟨false, own, inside, named, fits, ?_, rfl⟩)
    rw [same]
    simp [pageTag]
  constructor
  · intro written
    cases found : jsxSpan? ('<' :: (own ++ c :: body)) with
    | none =>
        -- The name would start with the letter of a span.
        obtain ⟨d, others, rfl, upper, -⟩ := named
        obtain ⟨rest, starts⟩ := exists_spanFor false selfClosing
        rw [spansForTags_char found, List.cons_append, spansForTags_of_upper upper,
          starts] at written
        rw [(List.cons.inj (List.cons.inj written).2).1] at upper
        cases upper
    | some result =>
        obtain ⟨closing, name, inside, other, fits, text, -⟩ := jsxSpan?_eq_some_iff.mp found
        obtain ⟨-, -, same⟩ := eq_of_pageTag named stops other fits text
        rw [opened fits same] at written
        rcases spanFor_append_eq written with ⟨kind, nothing⟩ | ⟨closes, opens, shown⟩
        · rw [eq_of_spansForTags List.not_mem_nil nothing] at same
          exact Or.inl ⟨inside, fits, same, kind⟩
        · exact Or.inr ⟨closes, inside, result.2, fits, opens, same, shown⟩
  · rintro (⟨inside, fits, same, rfl⟩ | ⟨rfl, inside, rest, fits, opens, same, shown⟩)
    · rw [opened fits same, spansForTags_nil, List.append_nil]
    · rw [opened fits same, opens, shown]
      rfl

/-- A text that ends with a span's end is no tag that closes itself. -/
theorem not_endsWith_span (front : Text) :
    ¬ EndsWith (closingMark true) (front ++ Text.ofString "</span>") := by
  rintro ⟨middle, same, -⟩
  have ends : Text.ofString "</span>" = Text.ofString "</spa" ++ ['n', '>'] := rfl
  rw [ends, ← List.append_assoc] at same
  have marks := (List.append_inj' same rfl).2
  exact absurd (List.cons.inj marks).1 (by decide)

/-- A tag that spans the whole text becomes the span for its kind just where it has the simple shape
that pages know: no angle bracket between its name and its end, and white space behind its name
unless it ends there. No other tag does, but for one that closes itself and looks like an opening
tag and a closing tag. -/
theorem spansForTags_tag_iff (read : readTagWithin t 0 t.length = .ok (some tag))
    (whole : tag.span = Span.ofNats 0 t.length) :
    spansForTags 0 t = Text.ofString (if tag.selfClosing then "<span></span>" else "<span>") ↔
      (∃ inside, FitsPage inside ∧ t = pageTag false tag.name inside) ∨
      tag.selfClosing = true ∧ ∃ first name second, FitsPage first ∧
        first.getLast? ≠ some '/' ∧ IsElementName name ∧ FitsPage second ∧
        t = pageTag false tag.name first ++ pageTag true name second := by
  obtain ⟨named, body, rfl, ends, stops⟩ := whole_of_readTagWithin read whole
  obtain ⟨c, body, rfl⟩ := List.exists_cons_of_ne_nil ends.ne_nil
  refine (spansForTags_eq_span_iff named (stops c rfl) body tag.selfClosing).trans ⟨?_, ?_⟩
  · rintro (⟨inside, fits, same, -⟩ | ⟨closes, inside, rest, fits, opens, same, shown⟩)
    · rw [same]
      exact Or.inl ⟨inside, fits, rfl⟩
    · refine Or.inr ⟨closes, inside, ?_⟩
      rw [same, closes] at ends
      rcases spansForTags_eq_close_iff.mp shown with rfl | ⟨name, second, other, fitsSecond, rfl⟩
      · rw [List.append_cons] at ends
        exact absurd ends (not_endsWith_span _)
      · rw [same]
        exact ⟨name, second, fits, by simpa using opens, other, fitsSecond, by simp [pageTag]⟩
  · rintro (⟨inside, fits, same⟩ |
      ⟨closes, first, name, second, fits, opens, other, fitsSecond, same⟩)
    · have behind := List.append_cancel_left (List.cons.inj same).2
      rw [behind] at ends
      exact Or.inl ⟨inside, fits, behind, ends.isClosing⟩
    · refine Or.inr ⟨closes, first, pageTag true name second, fits, by simpa using opens, ?_,
        spansForTags_eq_close_iff.mpr (Or.inr ⟨name, second, other, fitsSecond, rfl⟩)⟩
      rw [pageTag, List.cons_append] at same
      exact List.append_cancel_left ((List.cons.inj same).2.trans (by simp))

/-- A tag with a quoted value, a spread and a value in braces. -/
def teaserText : Text := Text.ofString "<Ui.Card title=\"a/b\" \x7b...rest\x7d n=\x7b1\x7d/>"

/-- What is read of that tag. -/
def teaserTag : JsxTag where
  name := Text.ofString "Ui.Card"
  span := Span.ofNats 0 teaserText.length
  selfClosing := true
  attributes := [
    ⟨Text.ofString "title", Text.ofString "a/b", some (Span.ofNats 9 20), some (Span.ofNats 16 19)⟩,
    ⟨Text.ofString "n", Text.ofString "\x7b1\x7d", some (Span.ofNats 31 36), none⟩]

theorem spansForTags_tag_iff_teaser :
    (readTagWithin teaserText 0 teaserText.length = .ok (some teaserTag) ∧
      teaserTag.span = Span.ofNats 0 teaserText.length) ∧
    spansForTags 0 teaserText = Text.ofString "<span></span>" := by
  have read : readTagWithin teaserText 0 teaserText.length = .ok (some teaserTag) := by
    decide +kernel
  have whole : teaserTag.span = Span.ofNats 0 teaserText.length := rfl
  refine ⟨⟨read, whole⟩, (spansForTags_tag_iff read whole).mpr (Or.inl ?_)⟩
  exact ⟨Text.ofString " title=\"a/b\" \x7b...rest\x7d n=\x7b1\x7d/",
    fitsPage_iff.mpr ⟨List.all_eq_true.mp rfl, rfl⟩, rfl⟩

/-- Not every tag becomes a span: the value of this one ends the tag for the page. -/
theorem not_forall_spansForTags_tag :
    ¬ ∀ t tag, readTagWithin t 0 t.length = .ok (some tag) →
      tag.span = Span.ofNats 0 t.length →
      spansForTags 0 t =
        Text.ofString (if tag.selfClosing then "<span></span>" else "<span>") := by
  intro claim
  have read : readTagWithin (Text.ofString "<A b=\">\"/>") 0 10 =
      .ok (some ⟨Text.ofString "A", Span.ofNats 0 10, true, [
        ⟨Text.ofString "b", Text.ofString ">", some (Span.ofNats 3 8),
          some (Span.ofNats 6 7)⟩]⟩) := by
    decide +kernel
  have shown : spansForTags 0 (Text.ofString "<A b=\">\"/>") = Text.ofString "<span>\"/>" := by
    decide +kernel
  have span := claim _ _ read rfl
  rw [shown] at span
  exact absurd span (by decide +kernel)

end Page

end MdxLocalization
