import MdxLocalization.Document.Parsing
import MdxLocalization.Proofs.ElementRange
import MdxLocalization.Proofs.LineBreakMarkup

/-!
# Nested elements

Raw HTML comes as one piece for each tag when the tags of elements stand apart from the text between
them. Among siblings in which such opening and closing tags are well nested, folding finds the
elements of this nesting, at any depth and also where elements of one name stand in each other.

Folding only looks for tags of one name at a time, and counts them. Over a well nested stretch of
siblings this count comes back to where it was, whatever name is looked for; so the first closing
tag that is found at depth zero is the one that belongs to the opening tag.
-/

namespace MdxLocalization

/-! ### Closing tags -/

namespace Jsx

/-- A name that an element may have. -/
def IsElementName (name : Text) : Prop :=
  ∃ c rest, name = c :: rest ∧ c.isUpper = true ∧ ∀ d ∈ rest, isNameRest d = true

/-- The closing tag of an element. -/
def closingTag (name : Text) : Text := '<' :: '/' :: name ++ ['>']

variable {name other : Text}

/-- The code points of white space. -/
def blankCodes : List Nat :=
  [9, 10, 11, 12, 13, 28, 29, 30, 31, 32, 133, 160, 5760, 8192, 8193, 8194, 8195, 8196, 8197, 8198,
    8199, 8200, 8201, 8202, 8232, 8233, 8239, 8287, 12288]

theorem mem_blankCodes {c : Char} (blank : Text.isBlank c = true) : c.toNat ∈ blankCodes := by
  simp only [Text.isBlank, Bool.or_eq_true, Bool.and_eq_true, decide_eq_true_eq,
    beq_iff_eq] at blank
  simp only [blankCodes, List.mem_cons, List.not_mem_nil, or_false]
  omega

/-- White space does not continue a name. -/
theorem isNameRest_of_isBlank {c : Char} (blank : Text.isBlank c = true) :
    isNameRest c = false := by
  have table : ∀ n ∈ blankCodes, isNameRest (Char.ofNat n) = false := by
    decide +kernel
  have same := table c.toNat (mem_blankCodes blank)
  rwa [Char.ofNat_toNat] at same

theorem isNameRest_of_isUpper {c : Char} (upper : c.isUpper = true) : isNameRest c = true := by
  have alphanumeric : c.isAlphanum = true := by
    change ((c.isUpper || c.isLower) || c.isDigit) = true
    rw [upper]
    rfl
  simp [isNameRest, Text.isWord, alphanumeric]

theorem IsElementName.rest (named : IsElementName name) : ∀ c ∈ name, isNameRest c = true := by
  obtain ⟨c, rest, rfl, upper, others⟩ := named
  exact List.forall_mem_cons.mpr ⟨isNameRest_of_isUpper upper, others⟩

theorem IsElementName.isName (named : IsElementName name) : IsName name := by
  have each := named.rest
  obtain ⟨c, rest, rfl, upper, others⟩ := named
  refine ⟨⟨c, rest, rfl, not_isBlank_of_isUpper upper⟩, fun feed => ?_, fun carriage => ?_⟩
  · exact absurd (each _ feed) (by decide)
  · exact absurd (each _ carriage) (by decide)

theorem isElementName_of_tagName? {t : Text} (named : tagName? t = some name) :
    IsElementName name := by
  unfold tagName? at named
  split at named
  · rename_i c rest
    split at named
    · rename_i upper
      cases named
      exact ⟨c, _, rfl, upper, fun d => List.all_eq_true.mp List.all_takeWhile d⟩
    · cases named
  · cases named

theorem dropWhile_isBlank_eq_self {c : Char} {t : Text} (filled : Text.isBlank c = false) :
    (c :: t).dropWhile Text.isBlank = c :: t := by
  rw [List.dropWhile_cons_of_neg (by simp [filled])]

/-- Behind a shorter name, a closing tag goes on with a character of its name, and a longer name
does not end before its bracket. -/
theorem closingTail?_of_ne (named : IsElementName name) (others : IsElementName other)
    (different : other ≠ name) : closingTail? other (name ++ ['>']) = none := by
  unfold closingTail?
  split
  · rename_i starts
    have isPrefix : other <+: name ++ ['>'] := List.isPrefixOf_iff_prefix.mp starts
    rcases List.prefix_or_prefix_of_prefix isPrefix (List.prefix_append name ['>']) with
      ⟨more, rfl⟩ | ⟨more, rfl⟩
    · cases more with
      | nil =>
          exact absurd (List.append_nil other).symm different
      | cons d more =>
          have continues : isNameRest d = true := named.rest d (by simp)
          have filled : Text.isBlank d = false := by
            by_contra blank
            rw [isNameRest_of_isBlank (by simpa using blank)] at continues
            cases continues
          have bracket : d ≠ '>' := by
            rintro rfl
            cases continues
          rw [List.append_assoc, List.drop_left, List.cons_append,
            dropWhile_isBlank_eq_self filled]
          split
          · simp_all
          · rfl
    · have further : more <+: ['>'] := (List.prefix_append_right_inj name).mp isPrefix
      cases more with
      | nil =>
          exact absurd (List.append_nil name) different
      | cons d more =>
          obtain ⟨rfl, -⟩ := List.cons_prefix_cons.mp further
          exact absurd (others.rest '>' (by simp)) (by decide)
  · rfl

/-- A closing tag is one of its own name and of no other. -/
theorem closingTagLength?_closingTag (named : IsElementName name) (others : IsElementName other) :
    closingTagLength? other (closingTag name) =
      if other = name then some (closingTag name).length else none := by
  have each := named.rest
  have starts : (name ++ ['>']).dropWhile Text.isBlank = name ++ ['>'] := by
    obtain ⟨c, rest, rfl, upper, -⟩ := named
    exact dropWhile_isBlank_eq_self (not_isBlank_of_isUpper upper)
  rw [closingTag, List.cons_append, List.cons_append, closingTagLength?_eq others.isName, starts]
  split
  · rename_i same
    subst same
    have behind : closingTail? other (other ++ ['>']) = some [] := by
      have isPrefix : Text.startsWith (other ++ ['>']) other = true :=
        List.isPrefixOf_iff_prefix.mpr (List.prefix_append _ _)
      rw [closingTail?, if_pos isPrefix, List.drop_left]
      rfl
    simp [behind]
  · rename_i different
    rw [closingTail?_of_ne named others different]
    rfl

theorem findClosingTag?_of_not_mem {t : Text} (absent : '<' ∉ t) (offset : Nat) :
    findClosingTag? name offset t = none := by
  induction t generalizing offset with
  | nil =>
      rfl
  | cons c rest hypothesis =>
      obtain ⟨other, further⟩ := List.ne_and_not_mem_of_not_mem_cons absent
      rw [findClosingTag?, closingTagLength?_of_ne other.symm]
      exact hypothesis further (offset + 1)

theorem findClosingTag?_closingTag (named : IsElementName name) (others : IsElementName other)
    (offset : Nat) :
    findClosingTag? other offset (closingTag name) =
      if other = name then some (offset, offset + (closingTag name).length) else none := by
  have later : '<' ∉ '/' :: name ++ ['>'] := by
    have inName : '<' ∉ name := fun member => absurd (named.rest _ member) (by decide)
    simp [inName]
  have first := closingTagLength?_closingTag named others
  rw [closingTag, List.cons_append] at first ⊢
  rw [findClosingTag?, first]
  by_cases same : other = name
  · simp only [if_pos same]
  · simp only [if_neg same]
    exact findClosingTag?_of_not_mem later (offset + 1)

end Jsx

namespace Document

/-! ### Siblings whose tags are nested -/

/-- A region without the closing tag of any element. -/
def Unclosing (source : Text) (start stop : Nat) : Prop :=
  ∀ name, Jsx.IsElementName name → closingTagIn? source name start stop = none

/-- A piece of raw HTML that is a tag from its first character to its last. Nothing in the
attributes looks like a closing tag. -/
structure IsTag (source : Text) (node : Node) (start stop : Nat) (tag : JsxTag) : Prop where
  html : htmlRegion? node = some (start, stop)
  isTag : Jsx.readTag? source start stop = some tag
  whole : tag.span = Span.ofNats start stop
  unclosing : Unclosing source start stop

/-- A piece of raw HTML that is a closing tag from its first character to its last. -/
structure IsClosing (source : Text) (node : Node) (start stop : Nat) (name : Text) : Prop where
  html : htmlRegion? node = some (start, stop)
  named : Jsx.IsElementName name
  whole : Text.slice source start stop = Jsx.closingTag name

/-- A node that is not raw HTML, or raw HTML without a tag of an element. -/
def IsPlain (source : Text) (node : Node) : Prop :=
  ∀ start stop, htmlRegion? node = some (start, stop) →
    Jsx.readTag? source start stop = none ∧ Unclosing source start stop

/-- The tags among siblings are well nested, and the second list is the forest of this nesting: an
element for each opening tag and the closing tag that belongs to it, from the start of the one to
the end of the other and around the forest of the siblings between them; an element without children
for each tag that closes itself; and the other siblings as they are. -/
inductive Nested (source : Text) : List Node → List Node → Prop where
  | nil : Nested source [] []
  | plain {node : Node} {rest forest : List Node} (plain : IsPlain source node)
      (others : Nested source rest forest) : Nested source (node :: rest) (node :: forest)
  | selfClosing {node : Node} {start stop : Nat} {tag : JsxTag} {rest forest : List Node}
      (isTag : IsTag source node start stop tag) (closes : tag.selfClosing = true)
      (others : Nested source rest forest) :
      Nested source (node :: rest) (.mk (tagInfo tag (Span.ofNats start stop)) [] :: forest)
  | element {first last : Node} {start stop start' stop' : Nat} {tag : JsxTag}
      {inner children rest forest : List Node} (isTag : IsTag source first start stop tag)
      (opens : tag.selfClosing = false) (closing : IsClosing source last start' stop' tag.name)
      (within : Nested source inner children) (others : Nested source rest forest) :
      Nested source (first :: inner ++ last :: rest)
        (.mk (tagInfo tag (Span.ofNats start stop')) children :: forest)

variable {source name : Text} {node last : Node} {start stop start' stop' lower upper : Nat}
  {tag : JsxTag} {inner children rest forest nodes : List Node}

theorem IsTag.named (isTag : IsTag source node start stop tag) : Jsx.IsElementName tag.name :=
  Jsx.isElementName_of_tagName? (Jsx.tagName?_of_readTag? isTag.isTag)

theorem IsTag.filled (isTag : IsTag source node start stop tag) (inOrder : start ≤ stop)
    (inside : stop ≤ source.length) : start < stop := by
  obtain ⟨tagStop, span, filled, -⟩ := Jsx.readTag?_within inOrder inside isTag.isTag
  have same := span.symm.trans isTag.whole
  simp only [Span.ofNats, Span.mk.injEq, Int.natCast_inj] at same
  omega

/-- A closing tag is no opening one. -/
theorem IsClosing.readTag?_eq_none (closing : IsClosing source node start stop name) :
    Jsx.readTag? source start stop = none := by
  cases found : Jsx.readTag? source start stop with
  | none =>
      rfl
  | some tag =>
      have named := Jsx.tagName?_of_readTag? found
      rw [closing.whole] at named
      cases named

theorem IsClosing.closingTagIn?_eq (closing : IsClosing source node start stop name) {other : Text}
    (named : Jsx.IsElementName other) (inOrder : start ≤ stop) (inside : stop ≤ source.length) :
    closingTagIn? source other start stop = if other = name then some (start, stop) else none := by
  have length := congrArg List.length closing.whole
  rw [Text.length_slice] at length
  have ends : start + (Jsx.closingTag name).length = stop := by omega
  rw [closingTagIn?, closing.whole, Jsx.findClosingTag?_closingTag closing.named named,
    ends]

/-! ### Looking for the end of an element -/

/-- The siblings with others before them. -/
def Ending.addAllBefore (nodes : List Node) (e : Ending) : Ending :=
  { e with between := nodes ++ e.between }

/-- A sibling that neither opens nor closes an element of a name. -/
def Inert (source name : Text) (node : Node) : Prop :=
  ∀ start stop, htmlRegion? node = some (start, stop) →
    closingTagIn? source name start stop = none ∧
      ∀ tag, Jsx.readTag? source start stop = some tag → tag.name = name → tag.selfClosing = true

theorem ending?_cons_of_inert (depth : Nat) (inert : Inert source name node) :
    ending? source name depth (node :: rest) =
      (ending? source name depth rest).map (·.addBefore node) := by
  rw [ending?]
  split
  · rfl
  · rename_i start stop html
    obtain ⟨noClosing, noOpening⟩ := inert start stop html
    cases isTag : Jsx.readTag? source start stop with
    | none =>
        simp only [noClosing]
        rfl
    | some tag =>
        by_cases same : tag.name = name
        · simp [noClosing, noOpening tag isTag same]
        · simp [noClosing, same]

theorem ending?_cons_of_opening (isTag : IsTag source node start stop tag)
    (opens : tag.selfClosing = false) (depth : Nat) :
    ending? source tag.name depth (node :: rest) =
      (ending? source tag.name (depth + 1) rest).map (·.addBefore node) := by
  rw [ending?, isTag.html]
  simp only [isTag.isTag, isTag.unclosing _ isTag.named, opens]
  rfl

theorem ending?_cons_of_closing (closing : IsClosing source last start stop name)
    (inOrder : start ≤ stop) (inside : stop ≤ source.length) (depth : Nat) :
    ending? source name depth (last :: rest) =
      match depth with
      | 0 => some ⟨[], start, (start, stop)⟩
      | depth + 1 => (ending? source name depth rest).map (·.addBefore last) := by
  rw [ending?, closing.html]
  simp only [closing.readTag?_eq_none, closing.closingTagIn?_eq closing.named inOrder inside,
    if_true]
  rfl

theorem HtmlWithin.of_append (nodes : List Node)
    (within : HtmlWithin lower upper (nodes ++ rest)) : HtmlWithin lower upper rest := by
  induction nodes generalizing lower with
  | nil =>
      exact within
  | cons node nodes hypothesis =>
      rw [List.cons_append, htmlWithin_cons] at within
      split at within
      · exact hypothesis within
      · obtain ⟨after, proper, others⟩ := within
        exact (hypothesis others).mono (Nat.le_trans after proper) (Nat.le_refl _)

theorem HtmlWithin.tail (within : HtmlWithin lower upper (node :: rest)) :
    HtmlWithin lower upper rest :=
  HtmlWithin.of_append [node] within

theorem IsPlain.inert (plain : IsPlain source node) (named : Jsx.IsElementName name) :
    Inert source name node := by
  intro start stop html
  obtain ⟨noTag, unclosing⟩ := plain start stop html
  exact ⟨unclosing name named, by simp [noTag]⟩

theorem IsTag.inert (isTag : IsTag source node start stop tag) (named : Jsx.IsElementName name)
    (other : tag.name = name → tag.selfClosing = true) :
    Inert source name node := by
  intro start' stop' html
  cases isTag.html.symm.trans html
  refine ⟨isTag.unclosing name named, fun tag' found => ?_⟩
  cases isTag.isTag.symm.trans found
  exact other

theorem IsClosing.inert (closing : IsClosing source last start stop tag.name)
    (named : Jsx.IsElementName name) (inOrder : start ≤ stop) (inside : stop ≤ source.length)
    (different : tag.name ≠ name) :
    Inert source name last := by
  intro start' stop' html
  cases closing.html.symm.trans html
  rw [closing.closingTagIn?_eq named inOrder inside, if_neg (Ne.symm different)]
  exact ⟨rfl, by simp [closing.readTag?_eq_none]⟩

/-- Over well nested siblings the count of open elements comes back to where it was. -/
theorem ending?_append_of_nested (nested : Nested source inner children)
    (named : Jsx.IsElementName name) (within : HtmlWithin lower upper inner)
    (inside : upper ≤ source.length) (depth : Nat) (rest : List Node) :
    ending? source name depth (inner ++ rest) =
      (ending? source name depth rest).map (·.addAllBefore inner) := by
  induction nested generalizing depth rest with
  | nil =>
      simp [Ending.addAllBefore]
  | plain plain _ hypothesis =>
      rw [List.cons_append, ending?_cons_of_inert depth (plain.inert named),
        hypothesis within.tail, Option.map_map]
      rfl
  | selfClosing isTag closes _ hypothesis =>
      rw [List.cons_append, ending?_cons_of_inert depth (isTag.inert named fun _ => closes),
        hypothesis within.tail, Option.map_map]
      rfl
  | @element first last start stop start' stop' tag inner children others forest isTag opens closing
      _ _ innerHypothesis hypothesis =>
      obtain ⟨before, inOrder, behind⟩ := within.tail.of_append_cons closing.html
      have innerWithin := before.mono (Nat.le_refl _) (Nat.le_trans inOrder behind)
      have othersWithin := within.tail.of_append.tail
      have closingInside := Nat.le_trans behind inside
      rw [List.cons_append, List.cons_append, List.append_assoc, List.cons_append]
      by_cases same : tag.name = name
      · subst same
        rw [ending?_cons_of_opening isTag opens, innerHypothesis innerWithin,
          ending?_cons_of_closing closing inOrder closingInside]
        dsimp only
        rw [hypothesis othersWithin]
        simp [Function.comp_def, Ending.addBefore, Ending.addAllBefore]
      · have notSame : tag.name = name → tag.selfClosing = true := fun equal => absurd equal same
        rw [ending?_cons_of_inert depth (isTag.inert named notSame), innerHypothesis innerWithin,
          ending?_cons_of_inert depth (closing.inert named inOrder closingInside same),
          hypothesis othersWithin]
        simp [Function.comp_def, Ending.addBefore, Ending.addAllBefore]

/-! ### Folding -/

section Folding

variable {read : FragmentReader} {fold : Folder}

theorem foldFrom_eq_drop (skip : Nat) (nodes : List Node) :
    foldFrom source read fold skip nodes = foldFrom source read fold 0 (nodes.drop skip) := by
  induction nodes generalizing skip with
  | nil =>
      rw [List.drop_nil]
      rfl
  | cons node rest hypothesis =>
      cases skip with
      | zero =>
          rfl
      | succ skip =>
          exact hypothesis skip

theorem element?_of_plain (plain : IsPlain source node) (rest : List Node) :
    element? source read fold node rest = pure none := by
  unfold element?
  cases html : htmlRegion? node with
  | none =>
      rfl
  | some region =>
      obtain ⟨start, stop⟩ := region
      simp only [(plain start stop html).1]

theorem element?_of_selfClosing (isTag : IsTag source node start stop tag)
    (closes : tag.selfClosing = true) (rest : List Node) :
    element? source read fold node rest =
      pure (some (.mk (tagInfo tag (Span.ofNats start stop)) [], 0)) := by
  unfold element?
  simp only [isTag.html, isTag.isTag, isTag.whole, closes, if_true]
  rfl

/-- The element between an opening tag and the closing tag that belongs to it. The pieces of raw
HTML hold nothing but these tags, so all its children stand between the two pieces. -/
theorem element?_of_nested (readsNothing : ∀ position, read position position = pure [])
    (isTag : IsTag source node start stop tag) (opens : tag.selfClosing = false)
    (closing : IsClosing source last start' stop' tag.name)
    (nested : Nested source inner children) (folded : fold inner = pure children)
    (within : HtmlWithin lower upper (inner ++ last :: rest)) (inside : upper ≤ source.length) :
    element? source read fold node (inner ++ last :: rest) =
      pure (some (.mk (tagInfo tag (Span.ofNats start stop')) children, inner.length + 1)) := by
  obtain ⟨before, inOrder, behind⟩ := within.of_append_cons closing.html
  have closingInside := Nat.le_trans behind inside
  have notHere : closingTagIn? source tag.name stop stop = none := by
    simp [closingTagIn?, Text.slice, Jsx.findClosingTag?]
  have ends : ending? source tag.name 0 (inner ++ last :: rest) =
      some ⟨inner, start', (start', stop')⟩ := by
    rw [ending?_append_of_nested nested isTag.named before (Nat.le_trans inOrder closingInside),
      ending?_cons_of_closing closing inOrder closingInside]
    simp [Ending.addAllBefore]
  unfold element?
  simp only [isTag.html, isTag.isTag, isTag.whole, opens, Bool.false_eq_true, if_false,
    Span.ofNats, Int.toNat_natCast, notHere, ends, readsNothing, pure_bind, List.nil_append,
    List.append_nil, folded]
  rfl

/-- Folding well nested siblings gives the forest of their nesting, if folding those between two
tags does so. -/
theorem foldFrom_of_nested (readsNothing : ∀ position, read position position = pure [])
    (inside : upper ≤ source.length) (nested : Nested source nodes forest)
    (within : HtmlWithin lower upper nodes)
    (folds : ∀ start stop inner children, stop - start < upper - lower →
      HtmlWithin start stop inner → stop ≤ source.length → Nested source inner children →
        fold inner = pure children) :
    foldFrom source read fold 0 nodes = pure forest := by
  induction nested with
  | nil =>
      rfl
  | plain plain _ hypothesis =>
      rw [foldFrom, element?_of_plain plain]
      simp only [pure_bind, hypothesis within.tail]
  | selfClosing isTag closes _ hypothesis =>
      rw [foldFrom, element?_of_selfClosing isTag closes]
      simp only [pure_bind, hypothesis within.tail]
  | @element first last start stop start' stop' tag inner children others forest isTag opens closing
      nested _ _ hypothesis =>
      obtain ⟨after, inOrder, behindTag⟩ := (htmlWithin_cons_some isTag.html).mp within
      obtain ⟨before, closingInOrder, behind⟩ := behindTag.of_append_cons closing.html
      have gap := before.le
      -- The opening tag is not empty, so less of the source is left for what it encloses.
      have filled := isTag.filled inOrder (by omega)
      have folded := folds stop start' inner children (by omega) before (by omega) nested
      have others : HtmlWithin lower upper _ := within.tail.of_append.tail
      rw [List.cons_append, foldFrom,
        element?_of_nested readsNothing isTag opens closing nested folded behindTag inside]
      simp only [pure_bind]
      rw [foldFrom_eq_drop, ← List.drop_drop, List.drop_left, List.drop_one, List.tail_cons,
        hypothesis others, pure_bind]

end Folding

/-- Folding siblings of a document in which the tags are well nested gives the forest of this
nesting and logs nothing. -/
theorem foldElements_of_nested (locate : ParagraphLocator) (nested : Nested source nodes forest)
    (within : HtmlWithin 0 source.length nodes) :
    foldElements locate source (source.length + 1) nodes = pure forest := by
  have general : ∀ budget lower upper nodes forest, upper - lower < budget →
      HtmlWithin lower upper nodes → upper ≤ source.length → Nested source nodes forest →
        foldElements locate source budget nodes = pure forest := by
    intro budget
    induction budget with
    | zero =>
        intro lower upper nodes forest size
        exact absurd size (Nat.not_lt_zero _)
    | succ budget hypothesis =>
        intro lower upper nodes forest size within inside nested
        rw [foldElements]
        refine foldFrom_of_nested (fun position => ?_) inside nested within ?_
        · simp [Text.slice, Text.isBlankText]
        · intro start stop inner children smaller
          exact hypothesis start stop inner children (by omega)
  exact general _ 0 _ nodes forest (by omega) within (Nat.le_refl _) nested

/-- Raw HTML that is one tag, and no closing one, holds no closing tag. -/
theorem unclosing_of_slice {c : Char} {t : Text}
    (whole : Text.slice source start stop = '<' :: c :: t) (slash : c ≠ '/')
    (absent : '<' ∉ c :: t) : Unclosing source start stop := by
  intro name _
  rw [closingTagIn?, whole, Jsx.findClosingTag?, Jsx.closingTagLength?_of_ne_slash slash]
  exact Jsx.findClosingTag?_of_not_mem absent (start + 1)

/-- An element in an element of the same name, with a tag that closes itself, a paragraph and a
piece of other raw HTML, and a second element behind. -/
theorem foldElements_of_nested_sameName :
    let source := Text.ofString "<A x><A><B/></A>t<i></A><C></C>"
    let html (start stop : Nat) : Node :=
      .mk { kind := .html, span := some (Span.ofNats start stop) } []
    let text : Node := .mk { kind := .paragraph, span := some (Span.ofNats 16 17) } []
    let element (name : String) (attributes : List JsxAttribute) (start stop : Nat)
        (children : List Node) : Node :=
      .mk { kind := .jsxElement, name := some (Text.ofString name), attributes,
            span := some (Span.ofNats start stop) } children
    let nodes := [html 0 5, html 5 8, html 8 12, html 12 16, text, html 17 20, html 20 24,
      html 24 27, html 27 31]
    let forest :=
      [element "A" [⟨['x'], [], some (Span.ofNats 3 4), none⟩] 0 24
        [element "A" [] 5 16 [element "B" [] 8 12 []], text, html 17 20],
        element "C" [] 24 31 []]
    Nested source nodes forest ∧ HtmlWithin 0 source.length nodes ∧
      foldElements Fragment.locateParagraph source (source.length + 1) nodes = pure forest := by
  intro source html text element nodes forest
  have tagAt (start stop : Nat) {c : Char} {t : Text} {tag : JsxTag}
      (whole : Text.slice source start stop = '<' :: c :: t) (slash : c ≠ '/')
      (absent : '<' ∉ c :: t) (found : Jsx.readTag? source start stop = some tag)
      (span : tag.span = Span.ofNats start stop) :
      IsTag source (html start stop) start stop tag :=
    ⟨rfl, found, span, unclosing_of_slice whole slash absent⟩
  have closingAt {start stop : Nat} {name : Text} (named : Jsx.IsElementName name)
      (whole : Text.slice source start stop = Jsx.closingTag name) :
      IsClosing source (html start stop) start stop name := ⟨rfl, named, whole⟩
  have outer := tagAt 0 5 rfl (by decide) (by decide) rfl rfl
  have inner := tagAt 5 8 rfl (by decide) (by decide) rfl rfl
  have alone := tagAt 8 12 rfl (by decide) (by decide) rfl rfl
  have second := tagAt 24 27 rfl (by decide) (by decide) rfl rfl
  have paragraph : IsPlain source text := by
    intro start stop raw
    cases raw
  have other : IsPlain source (html 17 20) := by
    intro start stop raw
    cases raw
    exact ⟨rfl, unclosing_of_slice rfl (by decide) (by decide)⟩
  have innerNested : Nested source [html 5 8, html 8 12, html 12 16, text, html 17 20]
      [element "A" [] 5 16 [element "B" [] 8 12 []], text, html 17 20] :=
    show Nested source (html 5 8 :: [html 8 12] ++ html 12 16 :: [text, html 17 20]) _ from
      .element inner rfl (closingAt inner.named rfl) (.selfClosing alone rfl .nil)
        (.plain paragraph (.plain other .nil))
  have nested : Nested source nodes forest :=
    show Nested source (html 0 5 :: [html 5 8, html 8 12, html 12 16, text, html 17 20] ++
        html 20 24 :: (html 24 27 :: [] ++ html 27 31 :: [])) _ from
      .element outer rfl (closingAt outer.named rfl) innerNested
        (.element second rfl (closingAt second.named rfl) .nil .nil)
  have within : HtmlWithin 0 source.length nodes := by
    simp only [nodes, html, text, HtmlWithin, htmlRegion?, Span.ofNats, Node.kind, Node.span,
      Node.info]
    decide
  exact ⟨nested, within, foldElements_of_nested _ nested within⟩

end Document

end MdxLocalization
