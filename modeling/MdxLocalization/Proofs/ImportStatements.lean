import MdxLocalization.Document.Parsing
import MdxLocalization.Extract.ModuleAddress
import MdxLocalization.Proofs.InlineCut
import MdxLocalization.Proofs.LineBreakModules
import MdxLocalization.Proofs.NestedElements
import MdxLocalization.Proofs.Splicing

/-!
# Import statements in a row

A block of module statements is written as statements, each followed by semicolons and white space.
Every statement is found, at its own place and with its own literal: the clause of a statement holds
neither quotes nor semicolons, so the first quote behind the word `import` opens its literal, and
what follows the literal up to the next statement neither starts a statement nor continues a word.

The references of a document with such a block are then the literals that localising alters.
-/

namespace MdxLocalization

theorem Text.trimEnd_append {t after : Text} (blank : ∀ c ∈ after, Text.isBlank c = true) :
    Text.trimEnd (t ++ after) = Text.trimEnd t := by
  have reversed : ∀ c ∈ after.reverse, Text.isBlank c = true := fun c member =>
    blank c (List.mem_reverse.mp member)
  rw [Text.trimEnd, Text.dropEndWhile, List.reverse_append,
    List.dropWhile_append_of_pos reversed]
  rfl

namespace Esm

/-! ### What a block is made of -/

/-- White space that parts two words. -/
def IsGap (t : Text) : Prop := t ≠ [] ∧ ∀ c ∈ t, Text.isBlank c = true

instance (t : Text) : Decidable (IsGap t) :=
  decidable_of_iff (t ≠ [] ∧ t.all Text.isBlank = true) (and_congr_right' List.all_eq_true)

/-- What stands between the word `import` and the literal: white space alone, or bindings and the
word `from`, with white space around them. -/
inductive ImportClause where
  | direct (gap : Text)
  | bindings (gap names before after : Text)

namespace ImportClause

def text : ImportClause → Text
  | .direct gap => gap
  | .bindings gap names before after =>
    gap ++ names ++ before ++ Text.ofString "from" ++ after

def WellFormed : ImportClause → Prop
  | .direct gap => IsGap gap
  | .bindings gap names before after =>
    IsGap gap ∧ (∀ c ∈ names, isClauseChar c = true) ∧ IsGap before ∧ IsGap after

instance (clause : ImportClause) : Decidable clause.WellFormed :=
  match clause with
  | .direct _ => inferInstanceAs (Decidable (IsGap _))
  | .bindings gap names before after =>
    decidable_of_iff (IsGap gap ∧ names.all isClauseChar = true ∧ IsGap before ∧ IsGap after)
      (and_congr_right' (and_congr_left' List.all_eq_true))

end ImportClause

/-- An import statement as it may be written. -/
structure ImportSyntax where
  clause : ImportClause
  quote : Char
  specifier : Text

namespace ImportSyntax

/-- The literal with its quotes. -/
def literal (statement : ImportSyntax) : Text :=
  statement.quote :: statement.specifier ++ [statement.quote]

def text (statement : ImportSyntax) : Text :=
  Text.ofString "import" ++ statement.clause.text ++ statement.literal

structure WellFormed (statement : ImportSyntax) : Prop where
  clause : statement.clause.WellFormed
  quote : isQuote statement.quote = true
  specifier : ∀ c ∈ statement.specifier, isLiteralChar c = true

instance (statement : ImportSyntax) : Decidable statement.WellFormed :=
  decidable_of_iff (statement.clause.WellFormed ∧ isQuote statement.quote = true ∧
      statement.specifier.all isLiteralChar = true)
    ⟨fun ⟨clause, quote, specifier⟩ => ⟨clause, quote, List.all_eq_true.mp specifier⟩,
      fun ⟨clause, quote, specifier⟩ => ⟨clause, quote, List.all_eq_true.mpr specifier⟩⟩

end ImportSyntax

/-- A character that may stand between two statements. -/
def isSeparator (c : Char) : Bool := c == ';' || Text.isBlank c

/-- A statement that may stand in a block, with what follows it up to the next one. -/
def IsSeparated (p : ImportSyntax × Text) : Prop :=
  p.1.WellFormed ∧ ∀ c ∈ p.2, isSeparator c = true

instance (p : ImportSyntax × Text) : Decidable (IsSeparated p) :=
  decidable_of_iff (p.1.WellFormed ∧ p.2.all isSeparator = true)
    (and_congr_right' List.all_eq_true)

def blockText : List (ImportSyntax × Text) → Text
  | [] => []
  | (statement, separators) :: rest => statement.text ++ (separators ++ blockText rest)

/-- The literals of statements whose text starts at an offset, with their spans. -/
def literalsAt (offset : Nat) : List (ImportSyntax × Text) → List (Text × Span)
  | [] => []
  | (statement, separators) :: rest =>
    let first := offset + 6 + statement.clause.text.length
    (statement.literal, Span.ofNats first (first + statement.literal.length)) ::
      literalsAt (offset + statement.text.length + separators.length) rest

/-! ### One statement -/

section Statement

variable {gap t : Text} {offset : Nat}

theorem isWord_of_isBlank {c : Char} (blank : Text.isBlank c = true) : Text.isWord c = false := by
  have other := Jsx.isNameRest_of_isBlank blank
  simp only [Jsx.isNameRest, Bool.or_eq_false_iff] at other
  exact other.1

theorem isClauseChar_of_isBlank {c : Char} (blank : Text.isBlank c = true) :
    isClauseChar c = true := by
  have table : ['"', '\'', ';'].any Text.isBlank = false := rfl
  have other : ∀ d ∈ ['"', '\'', ';'], c ≠ d := by
    rintro d member rfl
    exact List.any_eq_false.mp table c member blank
  simp only [List.mem_cons, List.not_mem_nil, or_false, forall_eq_or_imp, forall_eq] at other
  simp [isClauseChar, isQuote, other]

/-- White space alone is a clause. -/
theorem isImportClause_of_blank (isGap : IsGap gap) : isImportClause gap = true := by
  obtain ⟨filled, blank⟩ := isGap
  have empty : Text.trimEnd gap = [] := Text.trimEnd_append (t := []) blank
  cases gap with
  | nil =>
      exact absurd rfl filled
  | cons c rest =>
      rw [isImportClause, empty, blank c List.mem_cons_self]
      rfl

/-- Behind a gap the word `from` begins a word, whatever stands in front of the gap. -/
theorem isImportClause_of_from {before after : Text} {c : Char} (opens : Text.isBlank c = true)
    (isGap : IsGap before) (blank : ∀ d ∈ after, Text.isBlank d = true) (names : Text) :
    isImportClause (c :: names ++ before ++ Text.ofString "from" ++ after) = true := by
  obtain ⟨filled, blankBefore⟩ := isGap
  obtain ⟨front, last, rfl⟩ := List.eq_nil_or_concat' before |>.resolve_left filled
  have core : Text.trimEnd (c :: names ++ (front ++ [last]) ++ Text.ofString "from" ++ after) =
      c :: names ++ (front ++ [last]) ++ Text.ofString "from" := by
    rw [Text.trimEnd_append blank, show Text.ofString "from" = "fro".toList ++ ['m'] from rfl,
      ← List.append_assoc, Text.trimEnd, Text.dropEndWhile_concat]
    rfl
  have ends : Text.endsWith (c :: names ++ (front ++ [last]) ++ Text.ofString "from")
      (Text.ofString "from") = true :=
    List.isSuffixOf_iff_suffix.mpr (List.suffix_append _ _)
  have word : atWordEnd ((c :: names ++ (front ++ [last]) ++ Text.ofString "from").take
      ((c :: names ++ (front ++ [last]) ++ Text.ofString "from").length - 4)).reverse = true := by
    have solid := isWord_of_isBlank (blankBefore last (by simp))
    rw [List.length_append, show (Text.ofString "from").length = 4 from rfl, Nat.add_sub_cancel,
      List.take_left, ← List.append_assoc, List.reverse_append]
    simp [atWordEnd, solid]
  change (Text.isBlank c && ((Text.trimEnd _).isEmpty || (Text.endsWith (Text.trimEnd _) _ &&
    atWordEnd ((Text.trimEnd _).take ((Text.trimEnd _).length - 4)).reverse))) = true
  rw [core, opens, ends, word]
  rfl

theorem ImportClause.WellFormed.isImportClause {clause : ImportClause}
    (wellFormed : clause.WellFormed) : isImportClause clause.text = true := by
  cases clause with
  | direct gap =>
      exact isImportClause_of_blank wellFormed
  | bindings gap names before after =>
      obtain ⟨⟨filled, blank⟩, -, isGap, -, blankAfter⟩ := wellFormed
      cases gap with
      | nil =>
          exact absurd rfl filled
      | cons c rest =>
          exact isImportClause_of_from (blank c List.mem_cons_self) isGap blankAfter (rest ++ names)

theorem ImportClause.WellFormed.isClauseChar {clause : ImportClause}
    (wellFormed : clause.WellFormed) : ∀ c ∈ clause.text, isClauseChar c = true := by
  cases clause with
  | direct gap =>
      exact fun c member => isClauseChar_of_isBlank (wellFormed.2 c member)
  | bindings gap names before after =>
      obtain ⟨⟨-, blank⟩, plain, ⟨-, blankBefore⟩, -, blankAfter⟩ := wellFormed
      have word : ∀ c ∈ Text.ofString "from", Esm.isClauseChar c = true :=
        List.all_eq_true.mp rfl
      simp only [ImportClause.text, List.forall_mem_append]
      exact ⟨⟨⟨⟨fun c member => isClauseChar_of_isBlank (blank c member), plain⟩,
        fun c member => isClauseChar_of_isBlank (blankBefore c member)⟩, word⟩,
        fun c member => isClauseChar_of_isBlank (blankAfter c member)⟩

/-- A written statement is read, whatever stands behind it. -/
theorem importStatement?_text {statement : ImportSyntax} (wellFormed : statement.WellFormed)
    (rest : Text) :
    importStatement? (statement.text ++ rest) =
      some (6 + statement.clause.text.length, statement.literal, statement.text.length) := by
  obtain ⟨clause, quote, specifier⟩ := statement
  obtain ⟨clauseOk, isQuote, plain⟩ := wellFormed
  dsimp only at clauseOk isQuote plain
  have opens : isClauseChar quote = false := by simp [isClauseChar, isQuote]
  have closes : isLiteralChar quote = false := by simp [isLiteralChar, isQuote]
  obtain ⟨clauseTaken, clauseLeft⟩ :=
    Text.cut_append clauseOk.isClauseChar opens (specifier ++ quote :: rest)
  obtain ⟨literalTaken, literalLeft⟩ := Text.cut_append plain closes rest
  have spelled : (ImportSyntax.mk clause quote specifier).text ++ rest =
      Text.ofString "import" ++ (clause.text ++ quote :: (specifier ++ quote :: rest)) := by
    simp [ImportSyntax.text, ImportSyntax.literal]
  have size : (ImportSyntax.mk clause quote specifier).text.length =
      6 + clause.text.length + specifier.length + 2 := by
    simp [ImportSyntax.text, ImportSyntax.literal, Text.ofString]
    omega
  rw [spelled, importStatement?_eq, clauseTaken, clauseLeft]
  dsimp only
  rw [isQuote, clauseOk.isImportClause, literalTaken, literalLeft, Bool.and_self, if_pos rfl]
  dsimp only
  rw [if_pos rfl, size]
  rfl

end Statement

/-! ### A block of statements -/

section Block

variable {offset : Nat} {parts : List (ImportSyntax × Text)}

/-- What belongs to a statement that was found is passed over. -/
theorem importsFrom_passed (piece rest : Text) :
    importsFrom offset piece.length false (piece ++ rest) =
      importsFrom (offset + piece.length) 0 false rest := by
  induction piece generalizing offset with
  | nil =>
      rfl
  | cons c piece hypothesis =>
      rw [List.cons_append, List.length_cons, importsFrom_skip, hypothesis, Nat.add_assoc,
        Nat.add_comm 1]

/-- Nothing is found among separators, and they continue no word. -/
theorem importsFrom_separators {separators : Text}
    (separate : ∀ c ∈ separators, isSeparator c = true) (rest : Text) :
    importsFrom offset 0 false (separators ++ rest) =
      importsFrom (offset + separators.length) 0 false rest := by
  induction separators generalizing offset with
  | nil =>
      rfl
  | cons c separators hypothesis =>
      obtain ⟨head, others⟩ := List.forall_mem_cons.mp separate
      have noWord : Text.isWord c = false := by
        rcases Bool.or_eq_true _ _ ▸ head with semicolon | blank
        · rw [eq_of_beq semicolon]
          decide
        · exact isWord_of_isBlank blank
      have other : importStatement? (c :: (separators ++ rest)) = none := by
        apply importStatement?_of_not_startsWith
        by_contra starts
        rw [Bool.not_eq_false] at starts
        obtain ⟨behind, spelled⟩ := List.isPrefixOf_iff_prefix.mp starts
        have same : 'i' = c := (List.cons.inj spelled).1
        rw [← same] at noWord
        cases noWord
      rw [List.cons_append, importsFrom_other other, noWord, hypothesis others, List.length_cons,
        Nat.add_assoc, Nat.add_comm 1]

/-- A statement is found where it starts, and the search goes on behind it. -/
theorem importsFrom_text {statement : ImportSyntax} (wellFormed : statement.WellFormed)
    (rest : Text) :
    importsFrom offset 0 false (statement.text ++ rest) =
      (statement.literal,
          Span.ofNats (offset + 6 + statement.clause.text.length)
            (offset + 6 + statement.clause.text.length + statement.literal.length)) ::
        importsFrom (offset + statement.text.length) 0 false rest := by
  have read := importStatement?_text wellFormed rest
  obtain ⟨c, behind, spelled⟩ : ∃ c behind, statement.text = c :: behind := ⟨'i', _, rfl⟩
  rw [spelled, List.cons_append] at read ⊢
  rw [importsFrom_found read, ← Nat.add_assoc, List.length_cons, Nat.add_sub_cancel,
    importsFrom_passed, Nat.add_assoc offset 1, Nat.add_comm 1]

/-- The statements of a block are found one after the other. -/
theorem importsFrom_blockText (separated : ∀ p ∈ parts, IsSeparated p) :
    importsFrom offset 0 false (blockText parts) = literalsAt offset parts := by
  induction parts generalizing offset with
  | nil =>
      rfl
  | cons p parts hypothesis =>
      obtain ⟨⟨wellFormed, separate⟩, others⟩ := List.forall_mem_cons.mp separated
      rw [blockText, importsFrom_text wellFormed, importsFrom_separators separate,
        hypothesis others, literalsAt]

theorem literalsAt_fst : (literalsAt offset parts).map Prod.fst = parts.map (·.1.literal) := by
  induction parts generalizing offset with
  | nil =>
      rfl
  | cons p parts hypothesis =>
      rw [literalsAt, List.map_cons, List.map_cons, hypothesis]

/-- The span of a literal selects it. -/
theorem slice_literalsAt {source : Text} (stands : source.StandsAt (blockText parts) offset) :
    ∀ found ∈ literalsAt offset parts, found.2.slice source = found.1 := by
  induction parts generalizing offset with
  | nil =>
      exact List.forall_mem_nil _
  | cons p parts hypothesis =>
      obtain ⟨statement, separators⟩ := p
      rw [blockText] at stands
      refine List.forall_mem_cons.mpr ⟨?_, hypothesis stands.right.right⟩
      have selected := stands.left.right.slice_eq
      have size : (Text.ofString "import").length = 6 := rfl
      rw [List.length_append, size, ← Nat.add_assoc] at selected
      rw [Span.slice, Span.ofNats, Text.window_eq_slice]
      exact selected

theorem imports_blockText (separated : ∀ p ∈ parts, IsSeparated p) (before after : Text) :
    imports (before ++ blockText parts ++ after) before.length
        (before.length + (blockText parts).length) =
      literalsAt before.length parts := by
  have region : Text.slice (before ++ blockText parts ++ after) before.length
      (before.length + (blockText parts).length) = blockText parts := by
    rw [Text.slice, List.append_assoc, List.drop_left, Nat.add_sub_cancel_left, List.take_left]
  rw [imports, region, importsFrom_blockText separated]

end Block

end Esm

/-! ### The references of a document with a block -/

namespace Extract

open Document (Fragment esmNode)

variable {locale placeholder : Text}

/-- The node of a literal that was found. -/
def declarationNode (found : Text × Span) : Node :=
  .mk { kind := .importDeclaration, value := some found.1, span := some found.2 } []

/-- A literal that localising alters becomes a change in its place. -/
def alteredReference? (localized : Text → Text) (found : Text × Span) : Option Change :=
  if localized found.1 = found.1 then none
  else some { kind := .reference, text := localized found.1, span := found.2, notes := [] }

theorem reference?_declarationNode {localized : Text → Text} {found : Text × Span}
    (localizes : Url.localize locale placeholder found.1 = .ok (localized found.1)) :
    reference? locale placeholder (declarationNode found) =
      .ok (alteredReference? localized found) := by
  unfold reference? alteredReference?
  change (Url.localize locale placeholder found.1).mapError ExtractError.url >>= _ = _
  rw [localizes]
  by_cases same : localized found.1 = found.1
  · rw [if_pos same]
    exact if_pos same
  · rw [if_neg same]
    exact if_neg same

/-- The references of declarations of found literals are those that localising alters, in order. -/
theorem referencesOf_declarationNode {localized : Text → Text} {literals : List (Text × Span)}
    (localizes : ∀ found ∈ literals,
      Url.localize locale placeholder found.1 = .ok (localized found.1)) :
    ∃ events, referencesOf locale placeholder (literals.map declarationNode) =
      .ok (literals.filterMap (alteredReference? localized), events) := by
  induction literals with
  | nil =>
      exact ⟨[], rfl⟩
  | cons found literals hypothesis =>
      obtain ⟨first, others⟩ := List.forall_mem_cons.mp localizes
      obtain ⟨events, later⟩ := hypothesis others
      rw [List.map_cons, referencesOf, reference?_declarationNode first, later]
      cases altered : alteredReference? localized found with
      | none =>
          rw [List.filterMap_cons_none altered]
          exact ⟨_, rfl⟩
      | some change =>
          rw [List.filterMap_cons_some altered]
          exact ⟨_, rfl⟩

/-- The declarations of a document with one block are those of the block. -/
theorem declarations_of_block {root : Node} {front back : List Node} {f : Fragment}
    {start stop : Nat} (children : root.children = front ++ esmNode f start stop :: back)
    (only : ∀ node ∈ front ++ back, node.kind ≠ .esm) :
    declarations root = (Esm.imports f.source start stop).map declarationNode := by
  have none : ∀ nodes : List Node, (∀ node ∈ nodes, node.kind ≠ .esm) →
      nodes.filter (·.kind = .esm) = [] := fun nodes others =>
    List.filter_eq_nil_iff.mpr fun node member => by simpa using others node member
  have blocks : root.children.filter (·.kind = .esm) = [esmNode f start stop] := by
    rw [children, List.filter_append, List.filter_cons,
      none front fun node member => only node (List.mem_append_left _ member),
      none back fun node member => only node (List.mem_append_right _ member)]
    rfl
  have below : (esmNode f start stop).children =
      (Esm.imports f.source start stop).map declarationNode := rfl
  rw [declarations, blocks, List.flatMap_singleton, below, List.filter_eq_self]
  intro node member
  obtain ⟨found, -, rfl⟩ := List.mem_map.mp member
  rfl

/-- In a block of written statements each statement is found, in order, by its literal and the span
of it. Where each literal can be localised, the references of a document with this block are the
literals that localising alters, in order, each with its span and the altered literal. -/
theorem imports_and_references_blockText {parts : List (Esm.ImportSyntax × Text)}
    (separated : ∀ p ∈ parts, Esm.IsSeparated p) (before after : Text) {source : Text} {stop : Nat}
    (written : source = before ++ Esm.blockText parts ++ after)
    (ends : stop = before.length + (Esm.blockText parts).length) :
    Esm.imports source before.length stop = Esm.literalsAt before.length parts ∧
      (Esm.literalsAt before.length parts).map Prod.fst = parts.map (·.1.literal) ∧
      (∀ found ∈ Esm.literalsAt before.length parts, found.2.slice source = found.1) ∧
      ∀ (f : Fragment) (root : Node) (front back : List Node), f.source = source →
        root.children = front ++ esmNode f before.length stop :: back →
        (∀ node ∈ front ++ back, node.kind ≠ .esm) →
        ∀ (locale placeholder : Text) (localized : Text → Text),
          (∀ p ∈ parts,
            Url.localize locale placeholder p.1.literal = .ok (localized p.1.literal)) →
          ∃ events, references locale placeholder root =
            .ok ((Esm.literalsAt before.length parts).filterMap (alteredReference? localized),
              events) := by
  subst written ends
  have found := Esm.imports_blockText separated before after
  have texts : (Esm.literalsAt before.length parts).map Prod.fst = parts.map (·.1.literal) :=
    Esm.literalsAt_fst
  refine ⟨found, texts, Esm.slice_literalsAt ⟨before, after, rfl, rfl⟩, ?_⟩
  intro f root front back sourceOf children only locale placeholder localized localizes
  have each : ∀ found ∈ Esm.literalsAt before.length parts,
      Url.localize locale placeholder found.1 = .ok (localized found.1) := by
    intro found member
    have listed : found.1 ∈ parts.map (·.1.literal) := texts ▸ List.mem_map_of_mem member
    obtain ⟨p, isPart, same⟩ := List.mem_map.mp listed
    rw [← same]
    exact localizes p isPart
  obtain ⟨events, collected⟩ := referencesOf_declarationNode each
  rw [references, declarations_of_block children only, sourceOf, found, collected]
  exact ⟨_, rfl⟩

/-- Three statements. Bindings hold the words of the statement itself, and a specifier holds the
other separator. -/
def threeImports : List (Esm.ImportSyntax × Text) :=
  [ (⟨.direct " ".toList, '"', "./a;b".toList⟩, ";".toList),
    (⟨.bindings "\n".toList "import, \x7b from as x \x7d".toList " ".toList "\t".toList, '\'',
      "/en/m.js".toList⟩, " ;\n".toList),
    (⟨.bindings " ".toList "* as from".toList "\n".toList " ".toList, '"',
      "/docs/en".toList⟩, []) ]

theorem imports_and_references_threeImports :
    let source := "--\n".toList ++ Esm.blockText threeImports ++ "\n".toList
    let root : Node := .mk { kind := .root }
      [.mk { kind := .yaml } [], esmNode (Fragment.between source 0 98 true) 3 97]
    Esm.imports source 3 97 =
        [("\"./a;b\"".toList, ⟨10, 17⟩), ("'/en/m.js'".toList, ⟨52, 62⟩),
          ("\"/docs/en\"".toList, ⟨87, 97⟩)] ∧
      ∃ events, references "en-US".toList "locale".toList root =
        .ok ([{ kind := .reference, text := "'/%%locale%%/m.js'".toList, span := ⟨52, 62⟩,
                notes := [] },
              { kind := .reference, text := "\"/docs/%%locale%%\"".toList, span := ⟨87, 97⟩,
                notes := [] }], events) := by
  have separated : ∀ p ∈ threeImports, Esm.IsSeparated p := by
    decide +kernel
  let localized (t : Text) : Text :=
    (Url.localize "en-US".toList "locale".toList t).toOption.getD []
  have localizes : ∀ p ∈ threeImports, Url.localize "en-US".toList "locale".toList p.1.literal =
      .ok (localized p.1.literal) := by
    decide +kernel
  have ends : 97 = "--\n".toList.length + (Esm.blockText threeImports).length := by decide
  obtain ⟨found, -, -, references⟩ := imports_and_references_blockText separated "--\n".toList
    "\n".toList rfl ends
  obtain ⟨events, altered⟩ := references (Fragment.between _ 0 98 true)
    (.mk { kind := .root } [.mk { kind := .yaml } [], esmNode _ 3 97]) [.mk { kind := .yaml } []] []
    rfl rfl (by simp [Node.kind, Node.info]) _ _ localized localizes
  have changes : (Esm.literalsAt 3 threeImports).filterMap (alteredReference? localized) =
      [{ kind := .reference, text := "'/%%locale%%/m.js'".toList, span := ⟨52, 62⟩, notes := [] },
        { kind := .reference, text := "\"/docs/%%locale%%\"".toList, span := ⟨87, 97⟩,
          notes := [] }] := by
    decide +kernel
  exact ⟨found, events, changes ▸ altered⟩

end Extract

end MdxLocalization
