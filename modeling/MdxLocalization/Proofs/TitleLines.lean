import MdxLocalization.Proofs.LineBreakTitle
import MdxLocalization.Proofs.LineCuts

/-!
# Titles and the lines they stand on

A document has its own line breaks, and a title should stand on one line of the front matter: behind
`title:`, up to the last character that is no blank. The title is looked for in a different way. The
block is cut at line feeds only, so a carriage return is a character like any other, of which just
those at the end of a line are left out; and where nothing but blanks stands behind the colon, the
last of them is the title.

Both ways lead to the same title unless one of these two differences comes into play before it.
-/

namespace MdxLocalization

namespace Extract

open Text (splitOn)

variable {block line value t : Text} {lines : List Text} {start offset n : Nat}

/-! ### Titles on lines -/

/-- The title on a line and where it stands: what follows `title:` without the spaces and tabs
around it, if there is anything else. -/
def lineTitle? (line : Text) : Option (Nat × Text) :=
  if Text.startsWith line (Text.ofString "title:") then
    let body := line.drop 6
    let value := Text.dropEndWhile isTitleBlank (body.dropWhile isTitleBlank)
    if value.isEmpty then none else some (6 + Text.countWhile isTitleBlank body, value)
  else none

/-- The text of a value behind `shift` characters of it: what stands between two quotes of the same
kind at its ends, or else all of it. -/
inductive Unquoted : Text → Nat → Text → Prop where
  | quoted {quote : Char} (isQuote : quote ∈ ['\'', '"']) (inner : Text) :
      Unquoted (quote :: (inner ++ [quote])) 1 inner
  | bare {value : Text}
      (noQuotes : ∀ quote ∈ ['\'', '"'], ∀ inner, value ≠ quote :: (inner ++ [quote])) :
      Unquoted value 0 value

/-- The change for a title in a block that starts at an offset of the document. -/
def titleChange (start : Int) (found : Nat × Text) : Change :=
  { kind := .title, text := found.2,
    span := ⟨start + found.1, start + found.1 + found.2.length⟩,
    notes := Text.ofString "title for document" }

/-- The changes for a block are those that its lines ask for: none without a title on a line, and
for the first title its text without quotes, unless that is empty. The text stands on the line. -/
structure TitledByLine (block : Text) (start : Int) (changes : List Change) : Prop where
  untitled : (∀ i, lineTitle? ((SourceLines.ofText block 0).line i) = none) → changes = []
  titled : ∀ i n value shift inner,
    lineTitle? ((SourceLines.ofText block 0).line i) = some (n, value) →
    (∀ j < i, lineTitle? ((SourceLines.ofText block 0).line j) = none) →
    Unquoted value shift inner →
    n + shift + inner.length ≤ ((SourceLines.ofText block 0).line i).length ∧
      changes = if inner = [] then [] else
        [titleChange start ((SourceLines.ofText block 0).start i + n + shift, inner)]

def behind (k : Nat) (found : Nat × Text) : Nat × Text := (k + found.1, found.2)

/-- The first title in lines with one character behind each of them; `find` looks for it on a
line. -/
def firstTitle? (find : Text → Option (Nat × Text)) : List Text → Option (Nat × Text)
  | [] => none
  | line :: rest => (find line).or ((firstTitle? find rest).map (behind (line.length + 1)))

/-- The first title among the parts of a line between its carriage returns. -/
def partTitle? (line : Text) : Option (Nat × Text) := firstTitle? lineTitle? (splitOn '\r' line)

/-- What stands between the quotes of a title. -/
def bareTitle (value : Text) : Text := (unquote 0 value).2

/-- What is left of a title without quotes, unless that is nothing. -/
def filledTitle? (found : Option (Nat × Text)) : Option (Nat × Text) :=
  (found.map fun found => unquote found.1 found.2).filter fun found => !found.2.isEmpty

/-- Lines that end with line feeds say the same of the title as all lines of the text do. What is
taken as the title has no carriage return in it and is no blank. A title that stands behind a
carriage return is not missed, unless it is a pair of quotes and so is any other title. -/
def TitleKept : List Text → Prop
  | [] => True
  | line :: rest =>
    match titleOnLine? line, partTitle? line with
    | some (_, value), _ => '\r' ∉ value ∧ ∃ c ∈ value, isTitleBlank c = false
    | none, none => TitleKept rest
    | none, some (_, value) =>
      bareTitle value = [] ∧ ∀ found ∈ firstTitle? titleOnLine? rest, bareTitle found.2 = []

/-! ### Titles on a line -/

theorem lineTitle?_eq (body : Text) :
    lineTitle? (Text.ofString "title:" ++ body) =
      let value := Text.dropEndWhile isTitleBlank (body.dropWhile isTitleBlank)
      if value.isEmpty then none else some (6 + Text.countWhile isTitleBlank body, value) := by
  have starts : Text.startsWith (Text.ofString "title:" ++ body) (Text.ofString "title:") = true :=
    List.isPrefixOf_iff_prefix.mpr (List.prefix_append _ _)
  rw [lineTitle?, if_pos starts]
  rfl

theorem exists_of_lineTitle? (found : lineTitle? line = some (n, value)) :
    ∃ body, line = Text.ofString "title:" ++ body ∧
      value = Text.dropEndWhile isTitleBlank (body.dropWhile isTitleBlank) ∧
      n = 6 + Text.countWhile isTitleBlank body := by
  cases starts : Text.startsWith line (Text.ofString "title:") with
  | false =>
      rw [lineTitle?, starts] at found
      cases found
  | true =>
      obtain ⟨body, rfl⟩ := List.isPrefixOf_iff_prefix.mp starts
      rw [lineTitle?_eq] at found
      dsimp only at found
      split at found
      · cases found
      · cases found
        exact ⟨body, rfl, rfl, rfl⟩

theorem lineTitle?_within (found : lineTitle? line = some (n, value)) :
    n + value.length ≤ line.length ∧ ∀ c ∈ value, c ∈ line := by
  obtain ⟨body, rfl, rfl, rfl⟩ := exists_of_lineTitle? found
  have shorter := Text.length_dropEndWhile_le isTitleBlank (body.dropWhile isTitleBlank)
  have lead := Text.countWhile_le_length isTitleBlank body
  have size : (Text.ofString "title:").length = 6 := rfl
  obtain ⟨tail, parts, -⟩ := Text.exists_dropped isTitleBlank (body.dropWhile isTitleBlank)
  constructor
  · rw [Text.dropWhile_eq_drop_countWhile, List.length_drop] at shorter
    rw [Text.dropWhile_eq_drop_countWhile, List.length_append, size]
    omega
  · intro c member
    have kept : c ∈ body.dropWhile isTitleBlank := parts ▸ List.mem_append_left tail member
    exact List.mem_append_right _ ((List.dropWhile_suffix _).subset kept)

theorem lineTitle?_of_parts {lead trail : Text} (leads : ∀ c ∈ lead, isTitleBlank c = true)
    (filled : value ≠ []) (starts : ∀ c ∈ value.head?, isTitleBlank c = false)
    (ends : ∀ c ∈ value.getLast?, isTitleBlank c = false)
    (trails : ∀ c ∈ trail, isTitleBlank c = true) :
    lineTitle? (Text.ofString "title:" ++ (lead ++ (value ++ trail))) =
      some (6 + lead.length, value) := by
  have solid : ∀ c ∈ (value ++ trail).head?, isTitleBlank c = false := by
    rw [List.head?_append_of_ne_nil _ filled]
    exact starts
  have behind : (lead ++ (value ++ trail)).dropWhile isTitleBlank = value ++ trail := by
    rw [Text.dropWhile_eq_drop_countWhile, Text.countWhile_append leads solid, List.drop_left]
  rw [lineTitle?_eq, behind, Text.dropEndWhile_append ends trails,
    Text.countWhile_append leads solid]
  dsimp only
  rw [if_neg (by simpa using filled)]

/-! ### The first title -/

variable {find : Text → Option (Nat × Text)}

theorem exists_of_firstTitle? (found : firstTitle? find lines = some (n, value)) :
    ∃ line ∈ lines, ∃ m, find line = some (m, value) := by
  induction lines generalizing n with
  | nil =>
      cases found
  | cons line rest hypothesis =>
      rw [firstTitle?, Option.or_eq_some_iff] at found
      rcases found with here | ⟨-, later⟩
      · exact ⟨line, List.mem_cons_self, n, here⟩
      · obtain ⟨⟨n, value⟩, further, same⟩ := Option.map_eq_some_iff.mp later
        cases same
        obtain ⟨other, member, isThere⟩ := hypothesis further
        exact ⟨other, List.mem_cons_of_mem _ member, isThere⟩

theorem firstTitle?_within (c : Char)
    (inLine : ∀ line n value, find line = some (n, value) → n + value.length ≤ line.length)
    (found : firstTitle? find lines = some (n, value)) :
    n + value.length ≤ (Text.join [c] lines).length := by
  induction lines generalizing n with
  | nil =>
      cases found
  | cons line rest hypothesis =>
      have joined : line.length ≤ (Text.join [c] (line :: rest)).length := by
        cases rest <;> simp [Text.join]
      rw [firstTitle?, Option.or_eq_some_iff] at found
      rcases found with here | ⟨-, later⟩
      · exact Nat.le_trans (inLine line n value here) joined
      · obtain ⟨⟨n, value⟩, further, same⟩ := Option.map_eq_some_iff.mp later
        cases same
        have bound := hypothesis further
        cases rest with
        | nil =>
            cases further
        | cons next rest =>
            simp only [Text.join, List.length_append, List.length_singleton] at bound ⊢
            omega

theorem partTitle?_within (found : partTitle? line = some (n, value)) :
    n + value.length ≤ line.length := by
  have bound := firstTitle?_within '\r' (fun _ _ _ here => (lineTitle?_within here).1) found
  rwa [Text.join_splitOn] at bound

theorem not_mem_of_partTitle? (found : partTitle? line = some (n, value)) : '\r' ∉ value := by
  obtain ⟨piece, member, m, here⟩ := exists_of_firstTitle? found
  exact fun inside => Text.not_mem_of_mem_splitOn member ((lineTitle?_within here).2 _ inside)

theorem behind_comp_behind (k m : Nat) : behind k ∘ behind m = behind (k + m) := by
  funext found
  simp only [behind, Function.comp_apply, Nat.add_assoc]

theorem titleInLines?_eq :
    titleInLines? offset lines = (firstTitle? titleOnLine? lines).map (behind offset) := by
  induction lines generalizing offset with
  | nil =>
      rfl
  | cons line rest hypothesis =>
      rw [titleInLines?, firstTitle?]
      cases titleOnLine? line with
      | some found =>
          rfl
      | none =>
          rw [hypothesis, Option.none_or, Option.map_map, behind_comp_behind, Nat.add_assoc]

/-! ### Titles without quotes -/

theorem exists_unquoted (value : Text) : ∃ shift inner, Unquoted value shift inner := by
  by_cases quotes : ∃ quote ∈ ['\'', '"'], ∃ inner, value = quote :: (inner ++ [quote])
  · obtain ⟨quote, isQuote, inner, rfl⟩ := quotes
    exact ⟨1, inner, .quoted isQuote inner⟩
  · refine ⟨0, value, .bare fun quote isQuote inner same => quotes ⟨quote, isQuote, inner, same⟩⟩

theorem Unquoted.length_le {shift : Nat} {inner : Text} (unquoted : Unquoted value shift inner) :
    shift + inner.length ≤ value.length ∧ ∀ c ∈ inner, c ∈ value := by
  cases unquoted with
  | quoted isQuote inner =>
      refine ⟨?_, fun c member => List.mem_cons_of_mem _ (List.mem_append_left _ member)⟩
      simp only [List.length_cons, List.length_append, List.length_nil]
      omega
  | bare =>
      exact ⟨Nat.le_of_eq (Nat.zero_add _), fun c member => member⟩

theorem Unquoted.unquote_eq {shift : Nat} {inner : Text} (unquoted : Unquoted value shift inner)
    (start : Nat) : unquote start value = (start + shift, inner) := by
  cases unquoted with
  | @quoted quote isQuote inner =>
      have ends : (quote :: (inner ++ [quote])).getLast? = some quote := by
        rw [← List.cons_append, List.getLast?_concat]
      have holds : (2 ≤ (quote :: (inner ++ [quote])).length &&
          (quote == '\'' || quote == '"') && quote == quote) = true := by
        simp only [List.mem_cons, List.not_mem_nil, or_false] at isQuote
        rcases isQuote with rfl | rfl <;> simp
      unfold unquote
      rw [List.head?_cons, ends]
      dsimp only
      rw [if_pos holds, List.drop_one, List.tail_cons, List.dropLast_concat]
  | bare noQuotes =>
      unfold unquote
      split
      · rename_i first last starts ends
        rw [if_neg]
        · rfl
        intro holds
        simp only [Bool.and_eq_true, decide_eq_true_eq, beq_iff_eq] at holds
        obtain ⟨⟨long, isQuote⟩, rfl⟩ := holds
        obtain ⟨tail, rfl⟩ := List.head?_eq_some_iff.mp starts
        have filled : tail ≠ [] := by
          rintro rfl
          simp at long
        rw [List.getLast?_cons_of_ne_nil filled] at ends
        refine noQuotes first (by simpa using isQuote) tail.dropLast ?_
        rw [List.dropLast_append_getLast? first ends]
      · rfl

theorem bareTitle_eq {shift : Nat} {inner : Text} (unquoted : Unquoted value shift inner) :
    bareTitle value = inner := by
  rw [bareTitle, unquoted.unquote_eq]

theorem filledTitle?_some {shift : Nat} {inner : Text} (unquoted : Unquoted value shift inner)
    (start : Nat) :
    filledTitle? (some (start, value)) =
      if inner = [] then none else some (start + shift, inner) := by
  rw [filledTitle?, Option.map_some]
  dsimp only
  rw [unquoted.unquote_eq]
  by_cases empty : inner = [] <;> simp [Option.filter, empty]

theorem filledTitle?_map_behind (k : Nat) (found : Option (Nat × Text)) :
    filledTitle? (found.map (behind k)) = (filledTitle? found).map (behind k) := by
  cases found with
  | none =>
      rfl
  | some found =>
      obtain ⟨start, value⟩ := found
      obtain ⟨shift, inner, unquoted⟩ := exists_unquoted value
      rw [Option.map_some, behind, filledTitle?_some unquoted, filledTitle?_some unquoted]
      split
      · rfl
      · simp only [Option.map_some, behind, Nat.add_assoc]

theorem filledTitle?_eq_none_iff {found : Option (Nat × Text)} :
    filledTitle? found = none ↔ ∀ title ∈ found, bareTitle title.2 = [] := by
  cases found with
  | none =>
      simp [filledTitle?]
  | some found =>
      obtain ⟨start, value⟩ := found
      obtain ⟨shift, inner, unquoted⟩ := exists_unquoted value
      rw [filledTitle?_some unquoted]
      simp [bareTitle_eq unquoted]

theorem filledTitle?_within {found : Option (Nat × Text)} {k : Nat} {inner : Text}
    (filled : filledTitle? found = some (k, inner)) :
    ∃ start value, found = some (start, value) ∧ start ≤ k ∧ k < start + value.length ∧
      ∀ c ∈ inner, c ∈ value := by
  cases found with
  | none =>
      cases filled
  | some found =>
      obtain ⟨start, value⟩ := found
      obtain ⟨shift, inner, unquoted⟩ := exists_unquoted value
      rw [filledTitle?_some unquoted] at filled
      split at filled
      · cases filled
      · rename_i some
        cases filled
        have bounds := unquoted.length_le
        have length := List.length_pos_of_ne_nil some
        exact ⟨start, value, rfl, Nat.le_add_right _ _, by omega, bounds.2⟩

/-! ### Lines that end with line feeds -/

/-- What a line that is cut at line feeds only says of the title: the last of the blanks behind the
colon where there is nothing else, or what begins with the first other character and goes up to the
blanks and carriage returns at the end. -/
theorem titleOnLine?_cases (found : titleOnLine? line = some (n, value)) :
    (∃ body c, line = Text.ofString "title:" ++ body ∧ value = [c] ∧
      ∀ d ∈ c :: body, isTitleBlank d = true) ∨
    ∃ lead c rest tail, line = Text.ofString "title:" ++ (lead ++ (c :: rest ++ tail)) ∧
      n = 6 + lead.length ∧ value = c :: rest ∧ (∀ d ∈ lead, isTitleBlank d = true) ∧
      isTitleBlank c = false ∧ (∀ d ∈ rest.getLast?, isTitleBlank d = false) ∧
      ∀ d ∈ tail, (isTitleBlank d || d == '\r') = true := by
  cases starts : Text.startsWith line (Text.ofString "title:") with
  | false =>
      rw [titleOnLine?_of_not_startsWith starts] at found
      cases found
  | true =>
      obtain ⟨body, rfl⟩ := List.isPrefixOf_iff_prefix.mp starts
      rw [titleOnLine?_eq] at found
      cases remains : body.dropWhile isTitleBlank with
      | nil =>
          rw [remains] at found
          have blank := List.dropWhile_eq_nil_iff.mp remains
          have counted : Text.countWhile isTitleBlank body = body.length := by
            rw [← Text.length_takeWhile, List.takeWhile_eq_self_iff.mpr blank]
          dsimp only at found
          rw [counted] at found
          split at found
          · cases found
          · rename_i filled
            cases found
            obtain ⟨c, last⟩ := List.length_eq_one_iff.mp
              (show (body.drop (body.length - 1)).length = 1 by rw [List.length_drop]; omega)
            refine Or.inl ⟨body, c, rfl, last, List.forall_mem_cons.mpr ⟨?_, blank⟩⟩
            exact blank c (List.mem_of_mem_drop (last ▸ List.mem_singleton_self c))
      | cons c rest =>
          rw [remains] at found
          cases found
          obtain ⟨tail, parts, dropped⟩ :=
            Text.exists_dropped (fun c => isTitleBlank c || c == '\r') rest
          have solid := List.head?_dropWhile_not isTitleBlank body
          rw [remains] at solid
          have leads : ∀ d ∈ body.takeWhile isTitleBlank, isTitleBlank d = true :=
            List.all_eq_true.mp List.all_takeWhile
          have whole : body = body.takeWhile isTitleBlank ++ c :: rest := by
            rw [← remains, List.takeWhile_append_dropWhile]
          have counted := (Text.length_takeWhile isTitleBlank body).symm
          refine Or.inr ⟨_, c, _, tail, ?_, congrArg (6 + ·) counted, rfl, leads,
            by simpa using solid, fun d isLast => ?_, dropped⟩
          · rw [List.cons_append, parts, ← whole]
          · have kept := Text.getLast?_dropEndWhile _ _ d isLast
            exact (Bool.or_eq_false_iff.mp kept).1

/-- The title of a line stands on its first part, as long as no carriage return and no blank is
taken for it. -/
theorem partTitle?_of_titleOnLine? (found : titleOnLine? line = some (n, value))
    (clean : '\r' ∉ value) (solid : ∃ c ∈ value, isTitleBlank c = false) :
    partTitle? line = some (n, value) := by
  rcases titleOnLine?_cases found with ⟨body, c, -, rfl, blank⟩ |
    ⟨lead, c, rest, tail, rfl, rfl, rfl, leads, starts, ends, behind⟩
  · obtain ⟨d, member, filled⟩ := solid
    rw [List.mem_singleton.mp member, blank c List.mem_cons_self] at filled
    cases filled
  · obtain ⟨pieces, cut⟩ := Text.exists_splitOn_eq '\r'
      (Text.ofString "title:" ++ (lead ++ (c :: rest ++ tail)))
    have noReturn : '\r' ∉ lead := fun member => absurd (leads _ member) (by decide)
    rw [Text.takeWhile_append_of_not_mem (show '\r' ∉ Text.ofString "title:" by decide),
      Text.takeWhile_append_of_not_mem noReturn, Text.takeWhile_append_of_not_mem clean] at cut
    have trails : ∀ d ∈ tail.takeWhile (· != '\r'), isTitleBlank d = true := by
      intro d member
      have kept := List.mem_takeWhile_imp member
      have dropped := behind d ((List.takeWhile_subset _) member)
      simp only [bne_iff_ne, ne_eq] at kept
      simpa [kept] using dropped
    have solidEnd : ∀ d ∈ (c :: rest).getLast?, isTitleBlank d = false := by
      intro d isLast
      rw [List.getLast?_cons] at isLast
      cases last : rest.getLast? with
      | none =>
          rw [last] at isLast
          cases isLast
          exact starts
      | some e =>
          rw [last] at isLast
          cases isLast
          exact ends e last
    have first := lineTitle?_of_parts leads (List.cons_ne_nil c rest) (by simpa using starts)
      solidEnd trails
    rw [partTitle?, cut, firstTitle?, first, Option.some_or]

/-- Where a blank is taken for the title, the line has none. -/
theorem partTitle?_of_blank (found : titleOnLine? line = some (n, value))
    (blank : ∀ c ∈ value, isTitleBlank c = true) :
    partTitle? line = none ∧ ∃ c, value = [c] := by
  rcases titleOnLine?_cases found with ⟨body, c, rfl, rfl, blanks⟩ |
    ⟨lead, c, rest, tail, rfl, rfl, rfl, leads, starts, ends, behind⟩
  · have blankBody := (List.forall_mem_cons.mp blanks).2
    have single : '\r' ∉ Text.ofString "title:" ++ body := by
      rw [List.mem_append, not_or]
      exact ⟨by decide, fun member => absurd (blankBody _ member) (by decide)⟩
    have nothing : body.dropWhile isTitleBlank = [] := List.dropWhile_eq_nil_iff.mpr blankBody
    refine ⟨?_, c, rfl⟩
    rw [partTitle?, Text.splitOn_of_not_mem single, firstTitle?, lineTitle?_eq, nothing]
    rfl
  · rw [blank c List.mem_cons_self] at starts
    cases starts

/-- A title is found at the same place as one that stands behind it only where both are empty
without their quotes. -/
theorem filledTitle?_eq_behind_iff {other : Option (Nat × Text)} {k : Nat}
    (within : n + value.length ≤ k) :
    filledTitle? (some (n, value)) = filledTitle? (other.map (behind k)) ↔
      bareTitle value = [] ∧ ∀ found ∈ other, bareTitle found.2 = [] := by
  rw [filledTitle?_map_behind, ← filledTitle?_eq_none_iff]
  cases further : filledTitle? other with
  | none =>
      simp [filledTitle?_eq_none_iff]
  | some found =>
      simp only [Option.map_some, behind, reduceCtorEq, and_false, iff_false]
      intro same
      obtain ⟨start, text, isTitle, after, before, -⟩ := filledTitle?_within same
      cases isTitle
      omega

theorem behind_injective (k : Nat) : Function.Injective (behind k) := by
  rintro ⟨n, value⟩ ⟨m, text⟩ same
  rw [behind, behind, Prod.mk.injEq] at same
  exact Prod.ext (Nat.add_left_cancel same.1) same.2

theorem mem_of_bareTitle {c : Char} (member : c ∈ value) (noQuote : c ∉ ['\'', '"']) :
    c ∈ bareTitle value := by
  obtain ⟨shift, inner, unquoted⟩ := exists_unquoted value
  rw [bareTitle_eq unquoted]
  cases unquoted with
  | quoted isQuote inner =>
      rw [List.mem_cons, List.mem_append, List.mem_singleton] at member
      rcases member with rfl | inside | rfl
      · exact absurd isQuote noQuote
      · exact inside
      · exact absurd isQuote noQuote
  | bare =>
      exact member

/-- Looking for the title line feed by line feed finds what stands on the lines of the text. -/
theorem filledTitle?_firstTitle?_iff (lines : List Text) :
    filledTitle? (firstTitle? titleOnLine? lines) = filledTitle? (firstTitle? partTitle? lines) ↔
      TitleKept lines := by
  induction lines with
  | nil =>
      exact ⟨fun _ => trivial, fun _ => rfl⟩
  | cons line rest hypothesis =>
      rw [firstTitle?, TitleKept]
      cases found : titleOnLine? line with
      | some title =>
          obtain ⟨n, value⟩ := title
          rw [Option.some_or]
          constructor
          · intro same
            constructor
            · intro inside
              obtain ⟨shift, inner, unquoted⟩ := exists_unquoted value
              have kept := mem_of_bareTitle inside (by decide)
              rw [bareTitle_eq unquoted] at kept
              rw [filledTitle?_some unquoted, if_neg (List.ne_nil_of_mem kept)] at same
              obtain ⟨start, text, isTitle, -, -, within⟩ := filledTitle?_within same.symm
              obtain ⟨other, -, m, here⟩ := exists_of_firstTitle? isTitle
              exact not_mem_of_partTitle? here (within _ kept)
            · by_contra solid
              have blank : ∀ c ∈ value, isTitleBlank c = true := by simpa using solid
              obtain ⟨untitled, c, rfl⟩ := partTitle?_of_blank found blank
              rw [firstTitle?, untitled, Option.none_or] at same
              have within := Nat.le_succ_of_le (titleOnLine?_within found)
              cases ((filledTitle?_eq_behind_iff within).mp same).1
          · rintro ⟨clean, solid⟩
            rw [firstTitle?, partTitle?_of_titleOnLine? found clean solid, Option.some_or]
      | none =>
          rw [Option.none_or, firstTitle?]
          cases parts : partTitle? line with
          | none =>
              rw [Option.none_or, filledTitle?_map_behind, filledTitle?_map_behind, ← hypothesis]
              exact (Option.map_injective (behind_injective _)).eq_iff
          | some title =>
              obtain ⟨n, value⟩ := title
              rw [Option.some_or, eq_comm]
              exact filledTitle?_eq_behind_iff (Nat.le_succ_of_le (partTitle?_within parts))

/-! ### Lines that end with any break -/

/-- A place is that of the first title on the lines of a text. -/
inductive FirstOnLines (t : Text) : Option (Nat × Text) → Prop where
  | untitled (absent : ∀ i, lineTitle? ((SourceLines.ofText t 0).line i) = none) :
      FirstOnLines t none
  | titled {i n k : Nat} {value : Text}
      (found : lineTitle? ((SourceLines.ofText t 0).line i) = some (n, value))
      (absent : ∀ j < i, lineTitle? ((SourceLines.ofText t 0).line j) = none)
      (place : k = (SourceLines.ofText t 0).start i + n) : FirstOnLines t (some (k, value))

theorem partTitle?_of_not_mem (single : '\r' ∉ line) : partTitle? line = lineTitle? line := by
  rw [partTitle?, Text.splitOn_of_not_mem single, firstTitle?, firstTitle?, Option.map_none,
    Option.or_none]

theorem partTitle?_append (single : '\r' ∉ line) (t : Text) :
    partTitle? (line ++ '\r' :: t) =
      (lineTitle? line).or ((partTitle? t).map (behind (line.length + 1))) := by
  rw [partTitle?, Text.splitOn_append single, firstTitle?, ← partTitle?]

/-- The first title in a text that begins with a line stands there, or else behind the break. -/
theorem firstTitle?_broken {mark rest : Text} (single : Text.OneLine line)
    (isBreak : Text.IsBreak mark rest) :
    firstTitle? partTitle? (splitOn '\n' (line ++ (mark ++ rest))) =
      (lineTitle? line).or
        ((firstTitle? partTitle? (splitOn '\n' rest)).map
          (behind (line.length + mark.length))) := by
  cases isBreak with
  | feed =>
      rw [List.singleton_append, Text.splitOn_append single.1, firstTitle?,
        partTitle?_of_not_mem single.2]
      rfl
  | both =>
      have noFeed : '\n' ∉ line ++ ['\r'] := by simp [single.1]
      have parts : line ++ (['\r', '\n'] ++ rest) = (line ++ ['\r']) ++ '\n' :: rest := by simp
      have empty : partTitle? [] = none := rfl
      rw [parts, Text.splitOn_append noFeed, firstTitle?, partTitle?_append single.2, empty,
        Option.map_none, Option.or_none, List.length_append]
      rfl
  | lone ends =>
      have noFeed : '\n' ∉ line ++ ['\r'] := by simp [single.1]
      obtain ⟨pieces, cut⟩ := Text.exists_splitOn_eq '\n' rest
      rw [← List.append_assoc, Text.splitOn_append_of_eq noFeed cut, cut, firstTitle?, firstTitle?,
        List.append_assoc, List.singleton_append, partTitle?_append single.2, Option.or_assoc,
        Option.map_or, Option.map_map, behind_comp_behind, List.length_append, List.length_cons,
        List.length_singleton, Nat.add_right_comm, Nat.add_assoc]

theorem firstOnLines (t : Text) :
    FirstOnLines t (firstTitle? partTitle? (splitOn '\n' t)) := by
  induction t using Text.lines_induction with
  | last line single =>
      have lines := SourceLines.line_oneLine single 0
      rw [Text.splitOn_of_not_mem single.1, firstTitle?, firstTitle?, Option.map_none,
        Option.or_none, partTitle?_of_not_mem single.2]
      cases found : lineTitle? line with
      | none =>
          refine .untitled fun i => ?_
          rw [lines]
          split
          · exact found
          · rfl
      | some title =>
          refine .titled (i := 0) (by rw [lines]; exact found)
            (fun j before => absurd before (by omega)) ?_
          rw [SourceLines.start_zero, Nat.zero_add]
  | broken line mark rest single isBreak hypothesis =>
      have first : (SourceLines.ofText (line ++ (mark ++ rest)) 0).line 0 = line :=
        SourceLines.line_zero single isBreak
      have later : ∀ i, (SourceLines.ofText (line ++ (mark ++ rest)) 0).line (i + 1) =
          (SourceLines.ofText rest 0).line i := fun i => SourceLines.line_succ single isBreak
      rw [firstTitle?_broken single isBreak]
      cases found : lineTitle? line with
      | some title =>
          rw [Option.some_or]
          refine .titled (i := 0) (by rw [first]; exact found)
            (fun j before => absurd before (by omega)) ?_
          rw [SourceLines.start_zero, Nat.zero_add]
      | none =>
          rw [Option.none_or]
          have absent (i : Nat)
              (others : ∀ j < i, lineTitle? ((SourceLines.ofText rest 0).line j) = none) :
              ∀ j < i + 1,
                lineTitle? ((SourceLines.ofText (line ++ (mark ++ rest)) 0).line j) = none := by
            intro j before
            cases j with
            | zero =>
                rw [first]
                exact found
            | succ j =>
                rw [later]
                exact others j (by omega)
          generalize firstTitle? partTitle? (splitOn '\n' rest) = title at hypothesis ⊢
          cases hypothesis with
          | untitled others =>
              exact .untitled fun i => absent i (fun j _ => others j) i (Nat.lt_succ_self i)
          | @titled i _ _ _ isTitle others place =>
              refine .titled (i := i + 1) (by rw [later]; exact isTitle) (absent i others) ?_
              rw [SourceLines.start_succ single isBreak, place, ← Nat.add_assoc]

/-! ### The changes for a block -/

theorem FirstOnLines.titledByLine_iff {found : Option (Nat × Text)} {start : Int}
    {changes : List Change} (first : FirstOnLines block found) :
    TitledByLine block start changes ↔
      changes = (filledTitle? found).toList.map (titleChange start) := by
  cases first with
  | untitled absent =>
      refine ⟨fun titled => titled.untitled absent, fun none => ⟨fun _ => none, ?_⟩⟩
      intro i n value shift inner isTitle
      rw [absent i] at isTitle
      cases isTitle
  | @titled i n k value isTitle absent place =>
      obtain ⟨shift, inner, unquoted⟩ := exists_unquoted value
      rw [filledTitle?_some unquoted, place]
      constructor
      · intro titled
        rw [(titled.titled i n value shift inner isTitle absent unquoted).2]
        split <;> rfl
      · intro same
        refine ⟨fun none => ?_, ?_⟩
        · rw [none i] at isTitle
          cases isTitle
        · intro j m text shift' inner' isTitle' absent' unquoted'
          have here : j = i := by
            rcases Nat.lt_trichotomy i j with before | rfl | behind
            · rw [absent' i before] at isTitle
              cases isTitle
            · rfl
            · rw [absent j behind] at isTitle'
              cases isTitle'
          subst here
          rw [isTitle] at isTitle'
          cases isTitle'
          have parts := (unquoted.unquote_eq 0).symm.trans (unquoted'.unquote_eq 0)
          rw [Nat.zero_add, Nat.zero_add, Prod.mk.injEq] at parts
          obtain ⟨rfl, rfl⟩ := parts
          have onLine := (lineTitle?_within isTitle).1
          have inTitle := unquoted.length_le.1
          refine ⟨by omega, ?_⟩
          rw [same]
          split <;> rfl

/-- Where the text of a block starts: where the block records it, or else behind the line that
opens the block. -/
def valueStart (info : NodeInfo) (span : Span) : Int :=
  match info.dataField? "valueStart" with
  | some (.integer n) => n
  | _ => span.start + delimiterLength

/-- The changes of the front matter of a document are those for the title that is found line feed by
line feed. -/
theorem frontMatterTitle_eq {root node : Node} {span : Span}
    (isBlock : root.childOfKind? .yaml = some node) (placed : node.info.span = some span) :
    ∃ title, frontMatterTitle root = .ok title ∧
      title.changes = (filledTitle?
          (firstTitle? titleOnLine? (splitOn '\n' (node.info.value.getD [])))).toList.map
        (titleChange (valueStart node.info span)) := by
  unfold frontMatterTitle
  rw [isBlock]
  dsimp only
  rw [titleInLines?_eq]
  cases found : firstTitle? titleOnLine? (splitOn '\n' (node.info.value.getD [])) with
  | none =>
      exact ⟨_, rfl, rfl⟩
  | some title =>
      obtain ⟨start, value⟩ := title
      obtain ⟨shift, inner, unquoted⟩ := exists_unquoted value
      rw [filledTitle?_some unquoted, Option.map_some, behind, Nat.zero_add]
      dsimp only
      rw [unquoted.unquote_eq]
      dsimp only
      by_cases empty : inner = []
      · rw [if_pos empty, if_pos (List.isEmpty_iff.mpr empty)]
        exact ⟨_, rfl, rfl⟩
      · rw [if_neg empty, if_neg (by simpa using empty), NodeInfo.spanOrFail, placed]
        exact ⟨_, rfl, rfl⟩

theorem titleChange_injective (start : Int) : Function.Injective (titleChange start) := by
  rintro ⟨n, value⟩ ⟨m, text⟩ same
  rw [titleChange, titleChange, Change.mk.injEq, Span.mk.injEq] at same
  obtain ⟨-, texts, ⟨places, -⟩, -⟩ := same
  exact Prod.ext (Nat.cast_inj.mp (Int.add_left_cancel places)) texts

theorem toList_titleChange_inj {start : Int} {found found' : Option (Nat × Text)} :
    found.toList.map (titleChange start) = found'.toList.map (titleChange start) ↔
      found = found' := by
  cases found <;> cases found' <;> simp [(titleChange_injective start).eq_iff]

/-- The title of a document is the one that the lines of its front matter give, and has the changes
that they ask for, exactly when the lines that end with line feeds say the same of it. -/
theorem frontMatterTitle_byLine_iff {root node : Node} {span : Span}
    (isBlock : root.childOfKind? .yaml = some node) (placed : node.info.span = some span) :
    (∃ title, frontMatterTitle root = .ok title ∧
      TitledByLine (node.info.value.getD []) (valueStart node.info span) title.changes) ↔
        TitleKept (splitOn '\n' (node.info.value.getD [])) := by
  obtain ⟨title, found, changes⟩ := frontMatterTitle_eq isBlock placed
  have lines := firstOnLines (node.info.value.getD [])
  rw [← filledTitle?_firstTitle?_iff, ← toList_titleChange_inj, ← changes]
  constructor
  · rintro ⟨other, isOther, titled⟩
    cases found.symm.trans isOther
    exact lines.titledByLine_iff.mp titled
  · intro same
    exact ⟨title, found, lines.titledByLine_iff.mpr same⟩

/-- A document that is front matter with the given text. -/
def frontMatterOnly (value : Text) : Node :=
  .mk { kind := .root }
    [.mk { kind := .yaml, value := some value, data := [(Text.ofString "valueStart", .integer 5)],
           span := some (.ofNats 0 (value.length + 9)) } []]

/-- A document with three kinds of breaks in its front matter, and a title in quotes. -/
theorem frontMatterTitle_byLine_breaks :
    ∃ title, frontMatterTitle
        (frontMatterOnly (Text.ofString "a: b\rc: d\ntitle: 'x' \t\r\ne: f")) = .ok title ∧
      TitledByLine (Text.ofString "a: b\rc: d\ntitle: 'x' \t\r\ne: f") 5 title.changes := by
  have kept : '\r' ∉ Text.ofString "'x'" ∧ ∃ c ∈ Text.ofString "'x'", isTitleBlank c = false :=
    ⟨by decide, 'x', by decide, rfl⟩
  have isBlock : (frontMatterOnly (Text.ofString "a: b\rc: d\ntitle: 'x' \t\r\ne: f")).childOfKind?
      .yaml = some _ := rfl
  exact (frontMatterTitle_byLine_iff isBlock rfl).mpr kept

/-- A title without a value, and a field behind it: the blank behind the colon is taken for the
title. -/
theorem not_forall_titledByLine :
    ¬ ∀ (root node : Node) (span : Span), root.childOfKind? .yaml = some node →
      node.info.span = some span → ∃ title, frontMatterTitle root = .ok title ∧
        TitledByLine (node.info.value.getD []) (valueStart node.info span) title.changes := by
  intro always
  obtain ⟨title, found, titled⟩ :=
    always (frontMatterOnly (Text.ofString "title: \nx: y")) _ _ rfl rfl
  have blank : frontMatterTitle (frontMatterOnly (Text.ofString "title: \nx: y")) =
      .ok (.title (titleChange 5 (6, [' ']))) := rfl
  rw [blank] at found
  cases found
  have untitled : ∀ i,
      lineTitle? ((SourceLines.ofText (Text.ofString "title: \nx: y") 0).line i) = none := by
    intro i
    match i with
    | 0 => rfl
    | 1 => rfl
    | i + 2 => rfl
  cases titled.untitled untitled

end Extract

end MdxLocalization
