import MdxLocalization.Proofs.LineBreakText
import MdxLocalization.Proofs.MarkupRange

/-!
# Module statements with the other kind of line breaks

A break within an import statement stands among its bindings, where any white space will do. A
literal holds no break, so the same literals are found, at moved offsets.
-/

namespace MdxLocalization

namespace Text

variable {t : Text}

/-- A piece without line feeds ends both texts or neither. -/
theorem suffix_addReturns_iff {piece : Text} (noFeed : '\n' ∉ piece) :
    piece <:+ addReturns t ↔ piece <:+ t := by
  constructor
  · intro part
    induction t using List.reverseRecOn generalizing piece with
    | nil =>
        exact part
    | append_singleton t c hypothesis =>
        rw [addReturns_append] at part
        by_cases isBreak : c = '\n'
        · subst isBreak
          rw [show addReturns ['\n'] = ['\r'] ++ ['\n'] from rfl, ← List.append_assoc,
            List.suffix_concat_iff] at part
          rcases part with rfl | ⟨before, rfl, -⟩
          · exact List.nil_suffix
          · simp at noFeed
        · rw [addReturns_cons isBreak, addReturns_nil, List.suffix_concat_iff] at part
          rw [List.suffix_concat_iff]
          rcases part with empty | ⟨before, rfl, part⟩
          · exact Or.inl empty
          · exact Or.inr ⟨before, rfl, hypothesis (by simp_all) part⟩
  · intro part
    rw [← addReturns_eq_self noFeed]
    exact addReturns_suffix part

theorem endsWith_addReturns {piece : Text} (noFeed : '\n' ∉ piece) (t : Text) :
    endsWith (addReturns t) piece = endsWith t piece := by
  unfold endsWith
  rw [Bool.eq_iff_iff, List.isSuffixOf_iff_suffix, List.isSuffixOf_iff_suffix,
    suffix_addReturns_iff noFeed]

/-- A piece without breaks in a text moves with what stands before it. -/
theorem moved_piece {piece : Text} (noBreak : '\n' ∉ piece) (before behind : Text) :
    moved (before ++ (piece ++ behind)) before.length = (addReturns before).length ∧
      moved (before ++ (piece ++ behind)) (before.length + piece.length) =
        (addReturns before).length + piece.length := by
  have start : moved (before ++ (piece ++ behind)) before.length = (addReturns before).length := by
    rw [moved_eq_length (by simp), List.take_left]
  refine ⟨start, ?_⟩
  rw [moved_add_of_not_mem, start]
  rw [List.drop_left, List.take_left]
  exact noBreak

end Text

namespace Esm

variable {source t : Text}

theorem atWordEnd_addReturns (t : Text) : atWordEnd (Text.addReturns t) = atWordEnd t := by
  cases t with
  | nil =>
      rfl
  | cons c rest =>
      by_cases isBreak : c = '\n'
      · subst isBreak
        rfl
      · rw [Text.addReturns_cons isBreak]
        rfl

theorem atWordEnd_reverse_addReturns (t : Text) :
    atWordEnd (Text.addReturns t).reverse = atWordEnd t.reverse := by
  cases t using List.reverseRecOn with
  | nil =>
      rfl
  | append_singleton before c =>
      rw [Text.addReturns_append, List.reverse_append, List.reverse_append]
      by_cases isBreak : c = '\n'
      · subst isBreak
        rfl
      · rw [Text.addReturns_cons isBreak]
        rfl

/-- What stands behind a word at the start of a text. -/
theorem drop_addReturns_of_startsWith {word : Text} (noFeed : '\n' ∉ word)
    (starts : Text.startsWith t word = true) :
    (Text.addReturns t).drop word.length = Text.addReturns (t.drop word.length) := by
  obtain ⟨rest, rfl⟩ := List.isPrefixOf_iff_prefix.mp starts
  rw [Text.addReturns_append, Text.addReturns_eq_self noFeed, List.drop_left, List.drop_left]

theorem isModuleBlock_addReturns (t : Text) :
    isModuleBlock (Text.addReturns t) = isModuleBlock t := by
  have word : ∀ word : String, '\n' ∉ Text.ofString word → '\r' ∉ Text.ofString word →
      (Text.startsWith (Text.addReturns t) (Text.ofString word) &&
        atWordEnd ((Text.addReturns t).drop word.length)) =
      (Text.startsWith t (Text.ofString word) && atWordEnd (t.drop word.length)) := by
    intro word noFeed noReturn
    rw [Text.startsWith_addReturns noFeed noReturn]
    cases starts : Text.startsWith t (Text.ofString word) with
    | false =>
        rfl
    | true =>
        have behind := drop_addReturns_of_startsWith noFeed starts
        rw [Text.ofString, String.length_toList] at behind
        rw [behind, atWordEnd_addReturns]
  unfold isModuleBlock
  simp only [List.any_cons, List.any_nil]
  rw [word "import" (by decide) (by decide), word "export" (by decide) (by decide)]

/-! ### Import statements -/

theorem isImportClause_addReturns (t : Text) :
    isImportClause (Text.addReturns t) = isImportClause t := by
  have core : ∀ core : Text, (Text.endsWith (Text.addReturns core) (Text.ofString "from") &&
        atWordEnd ((Text.addReturns core).take ((Text.addReturns core).length - 4)).reverse) =
      (Text.endsWith core (Text.ofString "from") &&
        atWordEnd (core.take (core.length - 4)).reverse) := by
    intro core
    rw [Text.endsWith_addReturns (by decide)]
    cases ends : Text.endsWith core (Text.ofString "from") with
    | false =>
        rfl
    | true =>
        obtain ⟨before, rfl⟩ := List.isSuffixOf_iff_suffix.mp ends
        have size : (Text.ofString "from").length = 4 := rfl
        rw [Text.addReturns_append, Text.addReturns_eq_self (t := Text.ofString "from") (by decide),
          List.length_append, List.length_append, size, Nat.add_sub_cancel, Nat.add_sub_cancel,
          List.take_left, List.take_left, atWordEnd_reverse_addReturns]
  have trimmed : Text.trimEnd (Text.addReturns t) = Text.addReturns (Text.trimEnd t) :=
    Text.dropEndWhile_addReturns (by decide) t
  have empty : (Text.addReturns (Text.trimEnd t)).isEmpty = (Text.trimEnd t).isEmpty := by
    rw [Bool.eq_iff_iff, List.isEmpty_iff, List.isEmpty_iff, Text.addReturns_eq_nil_iff]
  cases t with
  | nil =>
      rfl
  | cons c rest =>
      obtain ⟨d, others, parts, blank⟩ : ∃ d others, Text.addReturns (c :: rest) = d :: others ∧
          Text.isBlank d = Text.isBlank c := by
        by_cases isBreak : c = '\n'
        · subst isBreak
          exact ⟨_, _, rfl, by decide⟩
        · exact ⟨c, _, Text.addReturns_cons isBreak rest, rfl⟩
      rw [parts, isImportClause, isImportClause, ← parts, trimmed, empty, core, blank]

/-- Whether a character may stand between `import` and the literal. -/
def isClauseChar (c : Char) : Bool := !isQuote c && c != ';'

/-- Whether a character may stand in a literal. -/
def isLiteralChar (c : Char) : Bool := !isQuote c && c != '\r' && c != '\n'

theorem importStatement?_eq (body : Text) :
    importStatement? (Text.ofString "import" ++ body) =
      match body.dropWhile isClauseChar with
      | [] => none
      | quote :: rest =>
        if isQuote quote && isImportClause (body.takeWhile isClauseChar) then
          match rest.dropWhile isLiteralChar with
          | [] => none
          | closing :: _ =>
            if closing = quote then
              some (6 + (body.takeWhile isClauseChar).length,
                quote :: rest.takeWhile isLiteralChar ++ [quote],
                6 + (body.takeWhile isClauseChar).length +
                  (rest.takeWhile isLiteralChar).length + 2)
            else none
        else none := by
  have starts : Text.startsWith (Text.ofString "import" ++ body) (Text.ofString "import") = true :=
    List.isPrefixOf_iff_prefix.mpr (List.prefix_append _ _)
  have behind : ∀ (p : Char → Bool) (t : Text), t.drop (t.takeWhile p).length = t.dropWhile p := by
    intro p t
    have parts := List.takeWhile_append_dropWhile (p := p) (l := t)
    exact (congrArg (List.drop (t.takeWhile p).length) parts.symm).trans List.drop_left
  rw [importStatement?, if_pos starts]
  dsimp only
  rw [show (Text.ofString "import" ++ body).drop 6 = body from rfl]
  change (match body.drop (body.takeWhile isClauseChar).length with
    | [] => none
    | quote :: rest =>
      if isQuote quote && isImportClause (body.takeWhile isClauseChar) then
        match rest.drop (rest.takeWhile isLiteralChar).length with
        | [] => none
        | closing :: _ => if closing = quote then _ else none
      else none) = _
  rw [behind]
  cases body.dropWhile isClauseChar with
  | nil =>
      rfl
  | cons quote rest =>
      dsimp only
      rw [behind]
      rfl

theorem importStatement?_of_not_startsWith
    (other : Text.startsWith t (Text.ofString "import") = false) : importStatement? t = none := by
  rw [importStatement?, other]
  rfl

/-- Where the literal of an import statement comes to lie. -/
theorem moved_literal {body rest tail : Text} {closing : Char} (noBreak : closing ≠ '\n')
    (quoted : body.dropWhile isClauseChar = closing :: rest)
    (closed : rest.dropWhile isLiteralChar = closing :: tail) :
    Text.moved (Text.ofString "import" ++ body) (6 + (body.takeWhile isClauseChar).length) =
        6 + (Text.addReturns (body.takeWhile isClauseChar)).length ∧
      Text.moved (Text.ofString "import" ++ body) (6 + (body.takeWhile isClauseChar).length +
          (rest.takeWhile isLiteralChar).length + 2) =
        6 + (Text.addReturns (body.takeWhile isClauseChar)).length +
          (rest.takeWhile isLiteralChar).length + 2 := by
  have literal : '\n' ∉ closing :: (rest.takeWhile isLiteralChar ++ [closing]) := by
    have name : '\n' ∉ rest.takeWhile isLiteralChar := by
      intro member
      have taken := List.all_eq_true.mp
        (List.all_takeWhile (p := isLiteralChar) (l := rest)) '\n' member
      cases taken
    simp [name, noBreak.symm]
  have parts : Text.ofString "import" ++ body =
      (Text.ofString "import" ++ body.takeWhile isClauseChar) ++
        (closing :: (rest.takeWhile isLiteralChar ++ [closing]) ++ tail) := by
    have inner := List.takeWhile_append_dropWhile (p := isLiteralChar) (l := rest)
    have outer := List.takeWhile_append_dropWhile (p := isClauseChar) (l := body)
    rw [closed] at inner
    rw [quoted, ← inner] at outer
    conv_lhs => rw [← outer]
    simp
  have places := Text.moved_piece literal
    (Text.ofString "import" ++ body.takeWhile isClauseChar) tail
  have size : (Text.ofString "import").length = 6 := rfl
  rw [← parts, Text.addReturns_append,
    Text.addReturns_eq_self (t := Text.ofString "import") (by decide)] at places
  simp only [List.length_append, List.length_cons, List.length_nil, size] at places
  exact places

/-- An import statement in a text with carriage returns has the same literal. -/
theorem importStatement?_addReturns (t : Text) :
    importStatement? (Text.addReturns t) =
      (importStatement? t).map fun (start, literal, length) =>
        (Text.moved t start, literal, Text.moved t length) := by
  cases starts : Text.startsWith t (Text.ofString "import") with
  | false =>
      have startsToo : Text.startsWith (Text.addReturns t) (Text.ofString "import") = false :=
        (Text.startsWith_addReturns (by decide) (by decide) t).trans starts
      rw [importStatement?_of_not_startsWith starts, importStatement?_of_not_startsWith startsToo]
      rfl
  | true =>
      obtain ⟨body, rfl⟩ := List.isPrefixOf_iff_prefix.mp starts
      rw [Text.addReturns_append, Text.addReturns_eq_self (t := Text.ofString "import") (by decide),
        importStatement?_eq, importStatement?_eq, Text.dropWhile_addReturns (by decide),
        Text.takeWhile_addReturns (by decide), isImportClause_addReturns]
      cases behind : body.dropWhile isClauseChar with
      | nil =>
          rfl
      | cons quote rest =>
          by_cases quoted : (isQuote quote && isImportClause (body.takeWhile isClauseChar)) = true
          · have noBreak : quote ≠ '\n' ∧ quote ≠ '\r' := by
              constructor <;> (rintro rfl; cases quoted)
            rw [Text.addReturns_cons noBreak.1]
            dsimp only
            rw [if_pos quoted, if_pos quoted, Text.dropWhile_addReturns (by decide),
              Text.takeWhile_addReturns_of_stops (by decide) (by decide)]
            cases after : rest.dropWhile isLiteralChar with
            | nil =>
                rfl
            | cons closing tail =>
                by_cases closes : closing = quote
                · subst closes
                  rw [Text.addReturns_cons noBreak.1]
                  dsimp only
                  rw [if_pos rfl, if_pos rfl]
                  have places := moved_literal noBreak.1 behind after
                  simp only [Option.map_some, places.1, places.2]
                · obtain ⟨next, others, parts, other⟩ := Text.exists_addReturns_cons
                    (p := (· ≠ quote)) tail (fun _ => noBreak.2.symm) (fun _ => closes)
                  rw [parts]
                  dsimp only
                  rw [if_neg closes, if_neg other]
                  rfl
          · obtain ⟨next, others, parts, other⟩ :=
              Text.exists_addReturns_cons (p := fun next => isQuote next = isQuote quote) rest
                (by rintro rfl; decide) (fun _ => rfl)
            rw [parts]
            dsimp only
            rw [other, if_neg quoted, if_neg quoted]
            rfl

theorem importsFrom_skip (offset skip : Nat) (inWord : Bool) (c : Char) (rest : Text) :
    importsFrom offset (skip + 1) inWord (c :: rest) =
      importsFrom (offset + 1) skip false rest := by
  rw [importsFrom, if_pos (Nat.succ_pos skip), Nat.add_sub_cancel]

theorem importsFrom_other {offset : Nat} {inWord : Bool} {c : Char} {rest : Text}
    (other : importStatement? (c :: rest) = none) :
    importsFrom offset 0 inWord (c :: rest) =
      importsFrom (offset + 1) 0 (Text.isWord c) rest := by
  rw [importsFrom, if_neg (Nat.lt_irrefl 0), other, ite_self]

theorem importsFrom_found {offset start length : Nat} {c : Char} {rest literal : Text}
    (found : importStatement? (c :: rest) = some (start, literal, length)) :
    importsFrom offset 0 false (c :: rest) =
      (literal, Span.ofNats (offset + start) (offset + start + literal.length)) ::
        importsFrom (offset + 1) (length - 1) false rest := by
  rw [importsFrom, if_neg (Nat.lt_irrefl 0), if_neg Bool.false_ne_true, found]

theorem importStatement?_break (rest : Text) :
    importStatement? ('\n' :: rest) = none ∧ importStatement? ('\r' :: rest) = none :=
  ⟨importStatement?_of_not_startsWith rfl, importStatement?_of_not_startsWith rfl⟩

/-- The literals in a text that stands at an offset of the source. -/
theorem importsFrom_addReturns {offset : Nat} (here : t <+: source.drop offset) (skip : Nat)
    (inWord : Bool) :
    importsFrom (Text.moved source offset) (Text.moved t skip) inWord (Text.addReturns t) =
      (importsFrom offset skip inWord t).map
        fun found => (found.1, found.2.moved source) := by
  induction t generalizing offset skip inWord with
  | nil =>
      rfl
  | cons c rest hypothesis =>
      have moves : ∀ {a : Nat}, a ≤ (c :: rest).length →
          Text.moved source (offset + a) = Text.moved source offset + Text.moved (c :: rest) a := by
        intro a inside
        obtain ⟨behind, parts⟩ := here
        rw [Text.moved_add, ← parts, ← Text.moved_take inside, List.take_left]
      have next : rest <+: source.drop (offset + 1) := by
        obtain ⟨behind, parts⟩ := here
        rw [← List.drop_drop, ← parts]
        exact List.prefix_append rest behind
      have first := moves (a := 1) (by simp)
      have later := hypothesis next
      rw [first] at later
      -- A break becomes two characters, neither of which begins a statement.
      by_cases isBreak : c = '\n'
      · subst isBreak
        rw [Text.moved_break_succ, Text.moved_zero] at later
        rw [Text.addReturns_break]
        cases skip with
        | zero =>
            rw [Text.moved_zero, importsFrom_other (importStatement?_break _).2,
              importsFrom_other (importStatement?_break _).1,
              importsFrom_other (importStatement?_break _).1]
            exact later 0 _
        | succ skip =>
            rw [importsFrom_skip, Text.moved_break_succ, importsFrom_skip, importsFrom_skip]
            exact later skip _
      · rw [Text.moved_cons_succ isBreak, Text.moved_zero] at later
        have statement := importStatement?_addReturns (c :: rest)
        rw [Text.addReturns_cons isBreak] at statement ⊢
        cases skip with
        | succ skip =>
            rw [importsFrom_skip, Text.moved_cons_succ isBreak, importsFrom_skip]
            exact later skip _
        | zero =>
            rw [Text.moved_zero]
            cases inWord with
            | true =>
                exact later 0 _
            | false =>
                cases found : importStatement? (c :: rest) with
                | none =>
                    rw [found] at statement
                    rw [importsFrom_other found, importsFrom_other statement]
                    exact later 0 _
                | some result =>
                    obtain ⟨start, literal, length⟩ := result
                    rw [found] at statement
                    obtain ⟨ends, positive, inside⟩ := importStatement?_within found
                    obtain ⟨endsToo, -, -⟩ := importStatement?_within statement
                    obtain ⟨length, rfl⟩ := Nat.exists_eq_succ_of_ne_zero (Nat.ne_of_gt positive)
                    have span := Span.moved_ofNats source (offset + start)
                      (offset + start + literal.length)
                    rw [Nat.add_assoc offset, moves (by omega), moves (by omega), ends, ← endsToo,
                      ← ends, ← Nat.add_assoc, ← Nat.add_assoc] at span
                    rw [importsFrom_found found, importsFrom_found statement, List.map_cons, span,
                      Text.moved_cons_succ isBreak, Nat.add_sub_cancel, Nat.succ_sub_one]
                    exact congrArg _ (later length false)

theorem imports_addReturns (source : Text) (start stop : Nat) :
    imports (Text.addReturns source) (Text.moved source start) (Text.moved source stop) =
      (imports source start stop).map fun found => (found.1, found.2.moved source) := by
  unfold imports
  rw [Text.slice_addReturns]
  exact importsFrom_addReturns (List.take_prefix _ _) 0 false

end Esm

end MdxLocalization
