import MdxLocalization.Proofs.InlineCut
import MdxLocalization.Proofs.NestedElements
import MdxLocalization.Proofs.Splicing

/-!
# Printed tags

A tag is printed as its name and its items, each behind white space, and the mark that ends it.
Scanning takes a printed tag apart again, whatever text stands around it: it finds the name, the
attributes in order with their values, and where all of them stand.

The scanner knows where it is from what is left of its region. So each step is a statement about the
rest of a region: it is what the item leaves, and it is as far from the end as the item is long.
-/

namespace MdxLocalization.Jsx

/-! ### Groups in braces -/

/-- A text without quotes in which braces are balanced. -/
inductive Balanced : Text → Prop where
  | nil : Balanced []
  | char {c : Char} {rest : Text} (plain : c ∉ ['"', '\'', '\x60', '\x7b', '\x7d'])
      (others : Balanced rest) : Balanced (c :: rest)
  | group {inner rest : Text} (within : Balanced inner) (others : Balanced rest) :
      Balanced ('\x7b' :: inner ++ '\x7d' :: rest)

/-- A text without quotes and braces is balanced. -/
theorem Balanced.of_plain {t : Text}
    (plain : t.all (· ∉ ['"', '\'', '\x60', '\x7b', '\x7d']) = true) : Balanced t := by
  induction t with
  | nil =>
      exact .nil
  | cons c t hypothesis =>
      rw [List.all_cons, Bool.and_eq_true, decide_eq_true_eq] at plain
      exact .char plain.1 (hypothesis plain.2)

/-- A text in braces. -/
def braced (inner : Text) : Text := '\x7b' :: inner ++ ['\x7d']

section Braces

variable {depth : Nat} {rest : Text}

theorem afterBraces_open : afterBraces depth none ('\x7b' :: rest) =
    afterBraces (depth + 1) none rest := rfl

theorem afterBraces_close :
    afterBraces (depth + 2) none ('\x7d' :: rest) = afterBraces (depth + 1) none rest := rfl

theorem afterBraces_char {c : Char} (plain : c ∉ ['"', '\'', '\x60', '\x7b', '\x7d']) :
    afterBraces depth none (c :: rest) = afterBraces depth none rest := by
  simp only [List.mem_cons, List.not_mem_nil, or_false, not_or] at plain
  simp [afterBraces, plain]

/-- Over a balanced text the count of open braces comes back to where it was. -/
theorem Balanced.afterBraces_append {inner : Text} (balanced : Balanced inner) :
    afterBraces (depth + 1) none (inner ++ rest) = afterBraces (depth + 1) none rest := by
  induction balanced generalizing depth rest with
  | nil =>
      rfl
  | char plain _ others =>
      rw [List.cons_append, afterBraces_char plain, others]
  | group _ _ within others =>
      rw [List.cons_append, List.cons_append, List.append_assoc, List.cons_append,
        afterBraces_open, within, afterBraces_close, others]

theorem Balanced.afterBraces_braced {inner : Text} (balanced : Balanced inner) (rest : Text) :
    afterBraces 0 none (braced inner ++ rest) = .found rest := by
  rw [braced, List.cons_append, List.cons_append, List.append_assoc, afterBraces_open,
    balanced.afterBraces_append]
  rfl

end Braces

/-! ### What a tag is made of -/

/-- A name that an attribute may have. -/
def IsAttributeName (name : Text) : Prop :=
  ∃ c rest, name = c :: rest ∧ isAttributeStart c = true ∧ ∀ d ∈ rest, isAttributeRest d = true

/-- What may stand in a tag behind its name: attributes of three forms, and spread items. -/
inductive TagItem where
  | bare (name : Text)
  | quoted (name : Text) (quote : Char) (value : Text)
  | expression (name inner : Text)
  | spread (inner : Text)

namespace TagItem

def text : TagItem → Text
  | .bare name => name
  | .quoted name quote value => name ++ '=' :: quote :: value ++ [quote]
  | .expression name inner => name ++ '=' :: braced inner
  | .spread inner => braced inner

def WellFormed : TagItem → Prop
  | .bare name => IsAttributeName name
  | .quoted name quote value =>
    IsAttributeName name ∧ (quote = '"' ∨ quote = '\'') ∧ quote ∉ value
  | .expression name inner => IsAttributeName name ∧ Balanced inner
  | .spread inner => Balanced inner

/-- The attribute that an item at an offset stands for. Only a value in quotes has a span. -/
def attribute? (offset : Nat) (item : TagItem) : Option JsxAttribute :=
  let span := some (Span.ofNats offset (offset + item.text.length))
  match item with
  | .bare name => some ⟨name, [], span, none⟩
  | .quoted name _ value =>
    let first := offset + name.length + 2
    some ⟨name, value, span, some (Span.ofNats first (first + value.length))⟩
  | .expression name inner => some ⟨name, braced inner, span, none⟩
  | .spread _ => none

end TagItem

/-- An item that may stand in a tag behind the given white space. -/
def IsSpaced (p : Text × TagItem) : Prop :=
  (p.1 ≠ [] ∧ ∀ c ∈ p.1, Text.isBlank c = true) ∧ p.2.WellFormed

/-- The text of items, each behind its white space. -/
def itemsText : List (Text × TagItem) → Text
  | [] => []
  | (gap, item) :: rest => gap ++ (item.text ++ itemsText rest)

/-- The attributes among items whose text starts at an offset. -/
def attributesAt (offset : Nat) : List (Text × TagItem) → List JsxAttribute
  | [] => []
  | (gap, item) :: rest =>
    (item.attribute? (offset + gap.length)).toList ++
      attributesAt (offset + gap.length + item.text.length) rest

/-- The mark that ends a tag. -/
def closingMark (selfClosing : Bool) : Text := if selfClosing then ['/', '>'] else ['>']

/-- A tag as it may be written: its name, its items, each with the white space in front of it, and
the white space in front of its mark. -/
structure TagSyntax where
  name : Text
  items : List (Text × TagItem)
  gap : Text
  selfClosing : Bool

namespace TagSyntax

def text (tag : TagSyntax) : Text :=
  '<' :: tag.name ++ (itemsText tag.items ++ (tag.gap ++ closingMark tag.selfClosing))

structure WellFormed (tag : TagSyntax) : Prop where
  name : IsElementName tag.name
  items : ∀ p ∈ tag.items, IsSpaced p
  gap : ∀ c ∈ tag.gap, Text.isBlank c = true

/-- The tag as it is found where its text starts at an offset. -/
def placed (tag : TagSyntax) (offset : Nat) : JsxTag where
  name := tag.name
  span := Span.ofNats offset (offset + tag.text.length)
  selfClosing := tag.selfClosing
  attributes := attributesAt (offset + 1 + tag.name.length) tag.items

end TagSyntax

/-! ### Names and what follows them -/

/-- A text that ends a name in front of it, and gives it no value. -/
def EndsName (t : Text) : Prop :=
  ∃ c rest, t = c :: rest ∧ isAttributeRest c = false ∧ c ≠ '='

variable {name rest t : Text} {stop : Nat}

/-- White space does not continue the name of an attribute. -/
theorem isAttributeRest_of_isBlank {c : Char} (blank : Text.isBlank c = true) :
    isAttributeRest c = false := by
  have noName := isNameRest_of_isBlank blank
  have table : Text.isBlank ':' = false ∧ Text.isBlank '-' = false := by decide
  simp only [isNameRest, Bool.or_eq_false_iff] at noName
  simp only [isAttributeRest, Bool.or_eq_false_iff, noName, true_and, and_true,
    beq_eq_false_iff_ne]
  constructor
  · rintro rfl
    rw [table.1] at blank
    cases blank
  · rintro rfl
    rw [table.2] at blank
    cases blank

theorem isNameRest_eq_false {c : Char} (other : isAttributeRest c = false) :
    isNameRest c = false := by
  simp only [isAttributeRest, Bool.or_eq_false_iff] at other
  simp only [isNameRest, Bool.or_eq_false_iff]
  exact ⟨other.1.1.1, other.1.2⟩

theorem endsName_closingMark (selfClosing : Bool) (after : Text) :
    EndsName (closingMark selfClosing ++ after) := by
  cases selfClosing
  · exact ⟨'>', after, rfl, by decide, by decide⟩
  · exact ⟨'/', '>' :: after, rfl, by decide, by decide⟩

/-- White space ends a name, and where there is none, what stands behind it has to. -/
theorem endsName_append {gap : Text} (blank : ∀ c ∈ gap, Text.isBlank c = true)
    (ends : gap = [] → EndsName rest) : EndsName (gap ++ rest) := by
  cases gap with
  | nil =>
      exact ends rfl
  | cons c gap =>
      have blankHead : Text.isBlank c = true := blank c List.mem_cons_self
      refine ⟨c, gap ++ rest, rfl, isAttributeRest_of_isBlank blankHead, ?_⟩
      rintro rfl
      cases blankHead

theorem endsName_items {items : List (Text × TagItem)}
    (spaced : ∀ p ∈ items, IsSpaced p) (ends : EndsName rest) :
    EndsName (itemsText items ++ rest) := by
  cases items with
  | nil =>
      exact ends
  | cons p items =>
      obtain ⟨⟨filled, blank⟩, -⟩ := spaced p List.mem_cons_self
      rw [itemsText, List.append_assoc]
      exact endsName_append blank fun empty => absurd empty filled

/-! ### Reading an attribute -/

/-- What an attribute with a value of a given text leaves. -/
theorem readAttribute_valued (named : IsAttributeName name) (quote : Char) (body : Text) :
    readAttribute stop (name ++ '=' :: quote :: body) =
      readValue stop name (name ++ '=' :: quote :: body) quote body := by
  obtain ⟨c, rest, rfl, starts, all⟩ := named
  obtain ⟨taken, left⟩ := Text.cut_append all (show isAttributeRest '=' = false by decide)
    (quote :: body)
  rw [List.cons_append, readAttribute_assigned starts left, taken]

theorem readAttribute_of_bare (named : IsAttributeName name) (ends : EndsName rest) :
    readAttribute stop (name ++ rest) =
      .found (⟨name, [], some (Span.ofNats (stop - (name ++ rest).length) (stop - rest.length)),
        none⟩, rest) := by
  obtain ⟨c, others, rfl, starts, all⟩ := named
  obtain ⟨d, behind, rfl, stops, noValue⟩ := ends
  obtain ⟨taken, left⟩ := Text.cut_append all stops behind
  rw [List.cons_append, readAttribute_bare starts noValue left, taken]

theorem readAttribute_of_quoted (named : IsAttributeName name) {quote : Char}
    (isQuote : quote = '"' ∨ quote = '\'') {value : Text} (free : quote ∉ value) (rest : Text) :
    readAttribute stop (name ++ '=' :: quote :: (value ++ quote :: rest)) =
      .found (⟨name, value,
        some (Span.ofNats (stop - (name ++ '=' :: quote :: (value ++ quote :: rest)).length)
          (stop - rest.length)),
        some (Span.ofNats (stop - (value ++ quote :: rest).length)
          (stop - (value ++ quote :: rest).length + value.length))⟩, rest) := by
  have closing : Text.findChar? (· == quote) (value ++ quote :: rest) = some value.length := by
    refine Text.findChar?_eq_some_iff.mpr ⟨value, quote, rest, rfl, fun d member => ?_, ?_, rfl⟩
    · rw [beq_eq_false_iff_ne]
      rintro rfl
      exact free member
    · exact beq_self_eq_true quote
  have behind : (value ++ quote :: rest).drop (value.length + 1) = rest := by
    rw [List.drop_length_add_append]
    rfl
  have opens : (decide (quote = '"') || decide (quote = '\'')) = true := by
    simpa using isQuote
  rw [readAttribute_valued named, readValue, if_pos opens, closing]
  dsimp only
  rw [List.take_left, behind]

theorem readAttribute_of_expression (named : IsAttributeName name) {inner : Text}
    (balanced : Balanced inner) (rest : Text) :
    readAttribute stop (name ++ '=' :: (braced inner ++ rest)) =
      .found (⟨name, braced inner,
        some (Span.ofNats (stop - (name ++ '=' :: (braced inner ++ rest)).length)
          (stop - rest.length)), none⟩, rest) := by
  have group := balanced.afterBraces_braced rest
  have body : braced inner ++ rest = '\x7b' :: (inner ++ '\x7d' :: rest) := by
    simp [braced]
  rw [body] at group ⊢
  have size : (inner ++ '\x7d' :: rest).length + 1 - rest.length = (braced inner).length := by
    simp only [braced, List.length_append, List.length_cons, List.length_nil]
    omega
  rw [readAttribute_valued named, readValue, if_neg (by decide), if_pos rfl, group]
  dsimp only
  rw [size, ← body, List.take_left]

/-- The attribute that an item stands for is read, and the text behind the item is left. -/
theorem readAttribute_of_item {item : TagItem} (wellFormed : item.WellFormed)
    (ends : EndsName rest) {offset : Nat} (placed : offset + (item.text ++ rest).length = stop)
    {a : JsxAttribute} (isAttribute : item.attribute? offset = some a) :
    readAttribute stop (item.text ++ rest) = .found (a, rest) := by
  have first : stop - (item.text ++ rest).length = offset := by omega
  have last : stop - rest.length = offset + item.text.length := by
    rw [List.length_append] at placed
    omega
  cases item with
  | bare name =>
      cases isAttribute
      rw [TagItem.text] at first last ⊢
      rw [readAttribute_of_bare wellFormed ends, first, last]
  | quoted name quote value =>
      obtain ⟨named, isQuote, free⟩ := wellFormed
      cases isAttribute
      have spelled : (TagItem.quoted name quote value).text ++ rest =
          name ++ '=' :: quote :: (value ++ quote :: rest) := by
        simp [TagItem.text]
      have valueFirst : stop - (value ++ quote :: rest).length = offset + name.length + 2 := by
        rw [spelled] at placed
        simp only [List.length_append, List.length_cons] at placed ⊢
        omega
      rw [spelled] at first ⊢
      rw [readAttribute_of_quoted named isQuote free, first, last, valueFirst]
  | expression name inner =>
      obtain ⟨named, balanced⟩ := wellFormed
      cases isAttribute
      have spelled : (TagItem.expression name inner).text ++ rest =
          name ++ '=' :: (braced inner ++ rest) := by
        simp [TagItem.text]
      rw [spelled] at first ⊢
      rw [readAttribute_of_expression named balanced, first, last]
  | spread inner =>
      cases isAttribute

/-! ### Reading a tag -/

section Body

variable {following : Option Char} {start budget offset : Nat} {attributes : List JsxAttribute}
  {gap : Text}

theorem dropWhile_gap (blank : ∀ c ∈ gap, Text.isBlank c = true) {c : Char}
    (solid : Text.isBlank c = false) (rest : Text) :
    (gap ++ c :: rest).dropWhile Text.isBlank = c :: rest := by
  rw [List.dropWhile_append_of_pos blank, dropWhile_isBlank_eq_self solid]

theorem isBlank_of_isAttributeStart {c : Char} (starts : isAttributeStart c = true) :
    Text.isBlank c = false := by
  by_contra blank
  have stops := isAttributeRest_of_isBlank (by simpa using blank)
  simp only [isAttributeStart, Bool.or_eq_true, beq_iff_eq] at starts
  simp only [isAttributeRest, Text.isWord, Char.isAlphanum, Bool.or_eq_false_iff] at stops
  rcases starts with (letter | rfl) | rfl
  · rw [letter] at stops
    simp at stops
  · simp at stops
  · simp at stops

/-- An item is read, and the scanner goes on behind it. -/
theorem tagBody_item {item : TagItem} (blank : ∀ c ∈ gap, Text.isBlank c = true)
    (wellFormed : item.WellFormed) (ends : EndsName rest)
    (placed : offset + (item.text ++ rest).length = stop) :
    tagBody following start stop name (budget + 1) attributes (gap ++ (item.text ++ rest)) =
      tagBody following start stop name budget ((item.attribute? offset).toList ++ attributes)
        rest := by
  have named {a : JsxAttribute} {c : Char} {others : Text} (starts : isAttributeStart c = true)
      (spelled : item.text ++ rest = c :: others)
      (isAttribute : item.attribute? offset = some a) :
      tagBody following start stop name (budget + 1) attributes (gap ++ (item.text ++ rest)) =
        tagBody following start stop name budget (a :: attributes) rest := by
    have read := readAttribute_of_item wellFormed ends placed isAttribute
    have other : ∀ d : Char, isAttributeStart d = false → c ≠ d := by
      rintro d stops rfl
      rw [starts] at stops
      cases stops
    rw [spelled] at read ⊢
    rw [tagBody_attribute (dropWhile_gap blank (isBlank_of_isAttributeStart starts) others)
      (other _ (by decide)) (other _ (by decide)) fun slash => absurd slash (other _ (by decide)),
      read]
  cases item with
  | bare name =>
      obtain ⟨c, others, rfl, starts, -⟩ := wellFormed
      exact named starts rfl rfl
  | quoted name quote value =>
      obtain ⟨⟨c, others, rfl, starts, -⟩, -⟩ := wellFormed
      exact named starts rfl rfl
  | expression name inner =>
      obtain ⟨⟨c, others, rfl, starts, -⟩, -⟩ := wellFormed
      exact named starts rfl rfl
  | spread inner =>
      have group := Balanced.afterBraces_braced wellFormed rest
      have left := dropWhile_gap blank (show Text.isBlank '\x7b' = false by decide)
        (inner ++ ['\x7d'] ++ rest)
      change tagBody following start stop name (budget + 1) attributes
        (gap ++ '\x7b' :: (inner ++ ['\x7d'] ++ rest)) = _
      change afterBraces 0 none ('\x7b' :: (inner ++ ['\x7d'] ++ rest)) = _ at group
      rw [tagBody_brace left, group]
      rfl

theorem tagBody_closingMark (blank : ∀ c ∈ gap, Text.isBlank c = true) (selfClosing : Bool)
    (after : Text) (placed : offset + (closingMark selfClosing ++ after).length = stop) :
    tagBody following start stop name (budget + 1) attributes
        (gap ++ (closingMark selfClosing ++ after)) =
      .found (closedTag name start (offset + (closingMark selfClosing).length) selfClosing
        attributes) := by
  have first : stop - (closingMark selfClosing ++ after).length = offset := by omega
  cases selfClosing with
  | false =>
      have left := dropWhile_gap blank (show Text.isBlank '>' = false by decide) after
      rw [← first]
      exact tagBody_bracket left
  | true =>
      have left := dropWhile_gap blank (show Text.isBlank '/' = false by decide) ('>' :: after)
      rw [← first]
      exact tagBody_slash_bracket left

/-- The items of a tag are read one after the other, up to the mark of the tag. -/
theorem tagBody_items {items : List (Text × TagItem)}
    (spaced : ∀ p ∈ items, IsSpaced p) (blank : ∀ c ∈ gap, Text.isBlank c = true)
    (selfClosing : Bool) (after : Text) (enough : items.length < budget)
    (placed : offset + (itemsText items ++ (gap ++ (closingMark selfClosing ++ after))).length =
      stop) :
    tagBody following start stop name budget attributes
        (itemsText items ++ (gap ++ (closingMark selfClosing ++ after))) =
      .found (closedTag name start
        (offset + (itemsText items ++ (gap ++ closingMark selfClosing)).length) selfClosing
        ((attributesAt offset items).reverse ++ attributes)) := by
  induction items generalizing budget offset attributes with
  | nil =>
      obtain ⟨budget, rfl⟩ := Nat.exists_eq_succ_of_ne_zero (Nat.ne_zero_of_lt enough)
      have behind : offset + gap.length + (closingMark selfClosing ++ after).length = stop := by
        rw [itemsText, List.nil_append, List.length_append] at placed
        omega
      rw [itemsText, List.nil_append, List.nil_append, tagBody_closingMark blank selfClosing after
        behind, List.length_append, Nat.add_assoc]
      rfl
  | cons p items hypothesis =>
      obtain ⟨space, item⟩ := p
      obtain ⟨budget, rfl⟩ := Nat.exists_eq_succ_of_ne_zero (Nat.ne_zero_of_lt enough)
      obtain ⟨⟨⟨-, spaceBlank⟩, itemWellFormed⟩, later⟩ := List.forall_mem_cons.mp spaced
      have ends : EndsName (itemsText items ++ (gap ++ (closingMark selfClosing ++ after))) :=
        endsName_items later (endsName_append blank fun _ => endsName_closingMark selfClosing after)
      have split : itemsText ((space, item) :: items) ++
            (gap ++ (closingMark selfClosing ++ after)) =
          space ++ (item.text ++
            (itemsText items ++ (gap ++ (closingMark selfClosing ++ after)))) := by
        simp [itemsText]
      rw [split, List.length_append, ← Nat.add_assoc] at placed
      have behind := placed
      rw [List.length_append, ← Nat.add_assoc] at behind
      have further := @hypothesis budget _
        ((item.attribute? (offset + space.length)).toList ++ attributes) later
        (Nat.lt_of_succ_lt_succ enough) behind
      have reversed : (item.attribute? (offset + space.length)).toList.reverse =
          (item.attribute? (offset + space.length)).toList := by
        cases item.attribute? (offset + space.length) <;> rfl
      have size : offset + space.length + item.text.length +
            (itemsText items ++ (gap ++ closingMark selfClosing)).length =
          offset + (itemsText ((space, item) :: items) ++
            (gap ++ closingMark selfClosing)).length := by
        simp only [itemsText, List.length_append]
        omega
      rw [split, tagBody_item spaceBlank itemWellFormed ends placed, further, size, attributesAt,
        List.reverse_append, reversed, List.append_assoc]

end Body

theorem length_le_itemsText {items : List (Text × TagItem)}
    (spaced : ∀ p ∈ items, IsSpaced p) : items.length ≤ (itemsText items).length := by
  induction items with
  | nil =>
      exact Nat.le_refl _
  | cons p items hypothesis =>
      obtain ⟨⟨⟨filled, -⟩, -⟩, later⟩ := List.forall_mem_cons.mp spaced
      have shorter := hypothesis later
      have positive := List.length_pos_iff.mpr filled
      simp only [itemsText, List.length_append, List.length_cons]
      omega

theorem tagName?_of_isElementName (named : IsElementName name) (ends : EndsName rest) :
    tagName? ('<' :: name ++ rest) = some name := by
  obtain ⟨c, others, rfl, upper, all⟩ := named
  obtain ⟨d, behind, rfl, stops, -⟩ := ends
  obtain ⟨taken, -⟩ := Text.cut_append all (isNameRest_eq_false stops) behind
  change tagName? ('<' :: c :: (others ++ d :: behind)) = _
  rw [tagName?, if_pos upper, taken]

/-- Scanning a printed tag, in a region that starts with it and reaches at least to its end. -/
theorem readRegion_text {tag : TagSyntax} (wellFormed : tag.WellFormed) (before after : Text)
    (covered : before.length + tag.text.length ≤ stop) :
    readRegion (before ++ tag.text ++ after) before.length stop =
      .found (tag.placed before.length) := by
  obtain ⟨room, rfl⟩ := Nat.exists_eq_add_of_le covered
  have region : Text.slice (before ++ tag.text ++ after) before.length
      (before.length + tag.text.length + room) = tag.text ++ after.take room := by
    rw [Text.slice, List.append_assoc, List.drop_left, Nat.add_assoc, Nat.add_sub_cancel_left,
      List.take_length_add_append]
  generalize after.take room = behind at region
  have split : tag.text ++ behind = '<' :: tag.name ++
      (itemsText tag.items ++ (tag.gap ++ (closingMark tag.selfClosing ++ behind))) := by
    simp [TagSyntax.text]
  have ends : EndsName
      (itemsText tag.items ++ (tag.gap ++ (closingMark tag.selfClosing ++ behind))) :=
    endsName_items wellFormed.items
      (endsName_append wellFormed.gap fun _ => endsName_closingMark tag.selfClosing behind)
  have left : ('<' :: tag.name ++
        (itemsText tag.items ++ (tag.gap ++ (closingMark tag.selfClosing ++ behind)))).drop
          (tag.name.length + 1) =
      itemsText tag.items ++ (tag.gap ++ (closingMark tag.selfClosing ++ behind)) := by
    rw [List.cons_append, List.drop_succ_cons, List.drop_left]
  have few := length_le_itemsText wellFormed.items
  have size : before.length + 1 + tag.name.length +
        (itemsText tag.items ++ (tag.gap ++ closingMark tag.selfClosing)).length =
      before.length + tag.text.length := by
    simp only [TagSyntax.text, List.length_append, List.length_cons]
    omega
  rw [readRegion, region, split, tagName?_of_isElementName wellFormed.name ends]
  dsimp only
  have placed : before.length + 1 + tag.name.length + (itemsText tag.items ++
        (tag.gap ++ (closingMark tag.selfClosing ++ behind))).length =
      before.length + ('<' :: tag.name ++ (itemsText tag.items ++
        (tag.gap ++ (closingMark tag.selfClosing ++ behind)))).length := by
    simp only [List.length_append, List.length_cons]
    omega
  rw [left, tagBody_items wellFormed.items wellFormed.gap tag.selfClosing behind ?_ placed]
  · rw [size, List.append_nil, closedTag, List.reverse_reverse]
    rfl
  · simp only [List.length_append, List.length_cons]
    omega

/-- A value span selects the value. -/
theorem slice_valueSpan {items : List (Text × TagItem)} {source : Text} {offset : Nat}
    (stands : source.StandsAt (itemsText items) offset) {a : JsxAttribute}
    (member : a ∈ attributesAt offset items) {span : Span} (valued : a.valueSpan = some span) :
    span.slice source = a.value := by
  induction items generalizing offset with
  | nil =>
      cases member
  | cons p items hypothesis =>
      obtain ⟨gap, item⟩ := p
      rw [itemsText] at stands
      rcases List.mem_append.mp member with here | later
      · have isAttribute := Option.mem_toList.mp here
        cases item with
        | quoted name quote value =>
            cases isAttribute
            cases valued
            have itemStands := stands.right.left
            have spelled : (TagItem.quoted name quote value).text =
                (name ++ ['=', quote]) ++ (value ++ [quote]) := by
              simp [TagItem.text]
            rw [spelled] at itemStands
            have selected := itemStands.right.left.slice_eq
            rw [List.length_append] at selected
            rw [Span.slice, Span.ofNats, Text.window_eq_slice]
            exact selected
        | bare name =>
            cases isAttribute
            cases valued
        | expression name inner =>
            cases isAttribute
            cases valued
        | spread inner =>
            cases isAttribute
      · exact hypothesis stands.right.right later

/-- Scanning undoes printing: at the start of a printed tag, whatever stands in front of it and
behind it and however far the region reaches, the scanner finds its name, its span, its mark, and
its attributes in order with their values and spans, and a value span selects the value. -/
theorem readTagWithin_text {tag : TagSyntax} (wellFormed : tag.WellFormed) (before after : Text)
    {stop : Nat} (covered : before.length + tag.text.length ≤ stop) :
    readTagWithin (before ++ tag.text ++ after) before.length stop =
        .ok (some (tag.placed before.length)) ∧
      readTag? (before ++ tag.text ++ after) before.length stop =
        some (tag.placed before.length) ∧
      ∀ a ∈ (tag.placed before.length).attributes, ∀ span, a.valueSpan = some span →
        span.slice (before ++ tag.text ++ after) = a.value := by
  have read := readRegion_text wellFormed before after covered
  refine ⟨by rw [readTagWithin, read], by rw [readTag?, read], fun a member span valued => ?_⟩
  have whole : (before ++ tag.text ++ after).StandsAt tag.text before.length :=
    ⟨before, after, rfl, rfl⟩
  have spelled : tag.text = ('<' :: tag.name) ++
      (itemsText tag.items ++ (tag.gap ++ closingMark tag.selfClosing)) := rfl
  rw [spelled] at whole
  have items := whole.right.left
  rw [List.length_cons, ← Nat.add_assoc, Nat.add_right_comm] at items
  exact slice_valueSpan items member valued

/-- A tag with an item of each form. A value holds a line break, the marks that end a tag and the
other quote; the groups in braces hold groups. -/
def cardTag : TagSyntax where
  name := "Ui.Card".toList
  items :=
    [ (" ".toList, .bare "open".toList),
      ("\n  ".toList, .quoted "title".toList '"' "a > b\n/> it's".toList),
      (" ".toList, .quoted "xml:lang".toList '\'' "".toList),
      ("\t".toList, .expression "style".toList (braced "x: 1".toList)),
      (" ".toList, .spread "...rest".toList) ]
  gap := "\n".toList
  selfClosing := true

theorem readTagWithin_text_cardTag :
    cardTag.WellFormed ∧
      readTagWithin ("<B> ".toList ++ cardTag.text ++ "> </B>".toList) 4 200 =
        .ok (some
          { name := "Ui.Card".toList, span := ⟨4, 81⟩, selfClosing := true,
            attributes :=
              [ ⟨"open".toList, [], some ⟨13, 17⟩, none⟩,
                ⟨"title".toList, "a > b\n/> it's".toList, some ⟨20, 41⟩, some ⟨27, 40⟩⟩,
                ⟨"xml:lang".toList, [], some ⟨42, 53⟩, some ⟨52, 52⟩⟩,
                ⟨"style".toList, "\x7b\x7bx: 1\x7d\x7d".toList, some ⟨54, 68⟩, none⟩ ] }) := by
  have wellFormed : cardTag.WellFormed :=
    { name := ⟨'U', "i.Card".toList, rfl, rfl, List.all_eq_true.mp rfl⟩
      items := by
        have gaps : ∀ p ∈ cardTag.items, p.1 ≠ [] ∧ p.1.all Text.isBlank = true := by decide
        have forms : ∀ p ∈ cardTag.items, p.2.WellFormed := by
          unfold cardTag
          repeat rw [List.forall_mem_cons]
          exact ⟨⟨'o', _, rfl, rfl, List.all_eq_true.mp rfl⟩,
            ⟨⟨'t', _, rfl, rfl, List.all_eq_true.mp rfl⟩, .inl rfl, by decide⟩,
            ⟨⟨'x', _, rfl, rfl, List.all_eq_true.mp rfl⟩, .inr rfl, by decide⟩,
            ⟨⟨'s', _, rfl, rfl, List.all_eq_true.mp rfl⟩, .group (.of_plain rfl) .nil⟩,
            .of_plain rfl, List.forall_mem_nil _⟩
        exact fun p member =>
          ⟨⟨(gaps p member).1, List.all_eq_true.mp (gaps p member).2⟩, forms p member⟩
      gap := List.all_eq_true.mp rfl }
  have covered : "<B> ".toList.length + cardTag.text.length ≤ 200 := by decide
  exact ⟨wellFormed, (readTagWithin_text wellFormed "<B> ".toList "> </B>".toList covered).1⟩

end MdxLocalization.Jsx
