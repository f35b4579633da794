import MdxLocalization.Proofs.LineBreakText
import MdxLocalization.Proofs.MarkupRange

/-!
# Tags and module statements with the other kind of line breaks

The scanners of tags and of module statements take a carriage return for what they take a line feed
for: white space, or a character of a value. They find the same in a text with carriage returns,
with moved spans; only the values of attributes show the breaks.
-/

namespace MdxLocalization

/-- An attribute as it is found when carriage returns are added to the source. -/
def JsxAttribute.moved (source : Text) (a : JsxAttribute) : JsxAttribute :=
  ⟨a.name, Text.addReturns a.value, a.span.map (Span.moved source),
    a.valueSpan.map (Span.moved source)⟩

/-- A tag as it is found when carriage returns are added to the source. -/
def JsxTag.moved (source : Text) (tag : JsxTag) : JsxTag :=
  { tag with
    span := tag.span.moved source
    attributes := tag.attributes.map (JsxAttribute.moved source) }

namespace Jsx

/-- The outcome with another result. -/
def Outcome.map {α β : Type} (f : α → β) : Outcome α → Outcome β
  | .found result => .found (f result)
  | .refused => .refused
  | .exhausted => .exhausted

variable {source region t u : Text} {stop stop' : Nat}

/-- Offsets that are reckoned from the end of a region come to lie where they should. -/
structure Reckons (source region : Text) (stop stop' : Nat) : Prop where
  inside : region.length ≤ stop
  fits : (Text.addReturns region).length ≤ stop'
  offset : ∀ t, t <:+ region →
    stop' - (Text.addReturns t).length = Text.moved source (stop - t.length)

theorem reckons_slice (source : Text) (start stop : Nat) :
    Reckons source (Text.slice source start stop) (start + (Text.slice source start stop).length)
      (Text.moved source start + (Text.addReturns (Text.slice source start stop)).length) where
  inside := Nat.le_add_left _ _
  fits := Nat.le_add_left _ _
  offset := by
    rintro t ⟨before, parts⟩
    have inside : before.length ≤ (Text.slice source start stop).length := by
      rw [← parts, List.length_append]
      exact Nat.le_add_right _ _
    have moved := Text.moved_add_slice inside
    have size : Text.moved (Text.slice source start stop) before.length =
        (Text.addReturns before).length := by
      rw [Text.moved_eq_length inside, ← parts, List.take_left]
    rw [← parts, Text.addReturns_append, List.length_append, List.length_append] at *
    rw [← Nat.add_assoc, ← Nat.add_assoc, Nat.add_sub_cancel, Nat.add_sub_cancel, moved, size]

theorem Reckons.offset_add (reckons : Reckons source region stop stop') (part : t <:+ region)
    {a : Nat} (inside : a ≤ t.length) :
    stop' - (Text.addReturns t).length + Text.moved t a =
      Text.moved source (stop - t.length + a) := by
  have whole := Text.moved_add_length_drop inside
  have behind := reckons.offset _ ((List.drop_suffix a t).trans part)
  have shorter := part.length_le
  have shorter' := (Text.addReturns_suffix part).length_le
  have regionInside := reckons.inside
  have regionFits := reckons.fits
  rw [List.length_drop] at behind
  rw [show stop - t.length + a = stop - (t.length - a) by omega, ← behind]
  omega

/-! ### Braces -/

theorem afterBraces_addReturns (depth : Nat) {quote : Option Char}
    (visible : ∀ q ∈ quote, q ≠ '\n' ∧ q ≠ '\r') (t : Text) :
    afterBraces depth quote (Text.addReturns t) =
      (afterBraces depth quote t).map Text.addReturns := by
  induction t generalizing depth quote with
  | nil =>
      rw [Text.addReturns_nil, afterBraces]
      split <;> rfl
  | cons c t hypothesis =>
      by_cases isBreak : c = '\n'
      · -- Neither character of a break is a quote or a brace.
        subst isBreak
        have rest := hypothesis depth visible
        rw [Text.addReturns_break]
        cases quote with
        | none =>
            simpa [afterBraces] using rest
        | some q =>
            obtain ⟨noFeed, noReturn⟩ := visible q rfl
            simpa [afterBraces, Ne.symm noFeed, Ne.symm noReturn] using rest
      · rw [Text.addReturns_cons isBreak, afterBraces.eq_def, afterBraces.eq_def]
        dsimp only
        cases quote with
        | some q =>
            dsimp only
            refine hypothesis depth ?_
            split
            · simp
            · exact visible
        | none =>
            dsimp only
            split
            · rename_i opens
              refine hypothesis depth ?_
              rintro q ⟨⟩
              rw [Bool.or_eq_true, Bool.or_eq_true, decide_eq_true_eq, decide_eq_true_eq,
                decide_eq_true_eq] at opens
              rcases opens with (rfl | rfl) | rfl <;> decide
            · split
              · exact hypothesis (depth + 1) (by simp)
              · split
                · split
                  · rfl
                  · exact hypothesis (depth - 1) (by simp)
                · exact hypothesis depth (by simp)

theorem suffix_of_afterBraces {depth : Nat} {quote : Option Char} {t rest : Text}
    (found : afterBraces depth quote t = .found rest) : rest <:+ t.tail := by
  induction t generalizing depth quote with
  | nil =>
      rw [afterBraces] at found
      split at found <;> cases found
  | cons c t hypothesis =>
      rw [afterBraces.eq_def] at found
      dsimp only at found
      repeat' split at found
      all_goals first
        | exact (hypothesis found).trans (List.tail_suffix t)
        | skip
      cases found
      exact List.suffix_rfl

/-! ### Attributes -/

theorem isAttributeRest_breaks : isAttributeRest '\n' = false ∧ isAttributeRest '\r' = false := by
  decide

/-- What is left behind an attribute is a part of the text, and shorter. -/
theorem suffix_of_readAttribute {rest : Text} {a : JsxAttribute}
    (found : readAttribute stop t = .found (a, rest)) : rest <:+ t ∧ rest.length < t.length := by
  unfold readAttribute at found
  split at found
  · cases found
  · rename_i c first
    have named : first.dropWhile isAttributeRest <:+ first := List.dropWhile_suffix _
    have shorten : ∀ {u : Text}, u <:+ first → u <:+ c :: first ∧ u.length < (c :: first).length :=
      fun part => ⟨part.trans (List.suffix_cons c first), Nat.lt_succ_of_le part.length_le⟩
    dsimp only at found
    split at found
    · split at found
      · cases found
      · cases found
      · rename_i quote body afterName
        rw [afterName] at named
        have bodyPart := (List.suffix_cons quote body).trans
          ((List.suffix_cons '=' (quote :: body)).trans named)
        split at found
        · split at found
          · cases found
          · cases found
            exact shorten ((List.drop_suffix _ _).trans bodyPart)
        · split at found
          · split at found
            · rename_i left braces
              cases found
              exact shorten ((suffix_of_afterBraces braces).trans bodyPart)
            · cases found
            · cases found
          · cases found
      · cases found
        exact shorten named
    · cases found

theorem moved_attribute (reckons : Reckons source region stop stop') (part : t <:+ region)
    (left : u <:+ region) (name value : Text) (valueSpan : Option Span) :
    JsxAttribute.mk name (Text.addReturns value)
        (some (Span.ofNats (stop' - (Text.addReturns t).length)
          (stop' - (Text.addReturns u).length))) (valueSpan.map (Span.moved source)) =
      JsxAttribute.moved source ⟨name, value,
        some (Span.ofNats (stop - t.length) (stop - u.length)), valueSpan⟩ := by
  rw [reckons.offset t part, reckons.offset u left, ← Span.moved_ofNats]
  rfl

/-- Reads the value of an attribute that starts with a text `t`, behind its equals sign. -/
def readValue (stop : Nat) (name t : Text) (quote : Char) (body : Text) :
    Outcome (JsxAttribute × Text) :=
  let make := fun (value : Text) (valueSpan : Option Span) (rest : Text) =>
    let span := some (Span.ofNats (stop - t.length) (stop - rest.length))
    Outcome.found (JsxAttribute.mk name value span valueSpan, rest)
  if quote = '"' || quote = '\'' then
    match Text.findChar? (· == quote) body with
    | none => .refused
    | some length =>
      make (body.take length)
        (some (Span.ofNats (stop - body.length) (stop - body.length + length)))
        (body.drop (length + 1))
  else if quote = '\x7b' then
    match afterBraces 0 none (quote :: body) with
    | .found rest => make ((quote :: body).take (body.length + 1 - rest.length)) none rest
    | .refused => .refused
    | .exhausted => .exhausted
  else .refused

section Reading

variable {c quote : Char} {rest body : Text} (starts : isAttributeStart c = true)

include starts

theorem readAttribute_assigned (assigned : rest.dropWhile isAttributeRest = '=' :: quote :: body) :
    readAttribute stop (c :: rest) =
      readValue stop (c :: rest.takeWhile isAttributeRest) (c :: rest) quote body := by
  rw [readAttribute, if_pos starts]
  dsimp only
  rw [assigned]
  rfl

theorem readAttribute_unfinished (ended : rest.dropWhile isAttributeRest ∈ [[], ['=']]) :
    readAttribute stop (c :: rest) = .exhausted := by
  rw [readAttribute, if_pos starts]
  dsimp only
  simp only [List.mem_cons, List.not_mem_nil, or_false] at ended
  rcases ended with ended | ended
  · rw [ended]
  · rw [ended]
    rfl

theorem readAttribute_bare {d : Char} (other : d ≠ '=')
    (bare : rest.dropWhile isAttributeRest = d :: body) :
    readAttribute stop (c :: rest) =
      .found (⟨c :: rest.takeWhile isAttributeRest, [],
        some (Span.ofNats (stop - (c :: rest).length) (stop - (d :: body).length)), none⟩,
        d :: body) := by
  rw [readAttribute, if_pos starts]
  dsimp only
  rw [bare]
  split <;> simp_all

end Reading

theorem readValue_addReturns (reckons : Reckons source region stop stop') (part : t <:+ region)
    (name : Text) {quote : Char} {body : Text} (value : quote :: body <:+ region)
    (noBreak : quote ≠ '\n') :
    readValue stop' name (Text.addReturns t) quote (Text.addReturns body) =
      (readValue stop name t quote body).map fun found =>
        (found.1.moved source, Text.addReturns found.2) := by
  have bodyPart : body <:+ region := (List.suffix_cons quote body).trans value
  unfold readValue
  dsimp only
  split
  · rename_i quoted
    have visible : ('\n' == quote) = false ∧ ('\r' == quote) = false := by
      rw [Bool.or_eq_true, decide_eq_true_eq, decide_eq_true_eq] at quoted
      rcases quoted with rfl | rfl <;> decide
    rw [Text.findChar?_addReturns visible.1 visible.2]
    cases closing : Text.findChar? (· == quote) body with
    | none =>
        rfl
    | some length =>
        have inside := Text.findChar?_lt_length closing
        obtain ⟨d, behind, found, isQuote⟩ := Text.exists_drop_of_findChar? closing
        obtain rfl : d = quote := by simpa using isQuote
        have rest : (body.drop (length + 1)) <:+ region := (List.drop_suffix _ _).trans bodyPart
        have step : Text.moved body (length + 1) = Text.moved body length + 1 := by
          apply Text.moved_add_of_not_mem
          simp [found, Ne.symm noBreak]
        dsimp only [Option.map_some]
        rw [Text.take_addReturns, ← step, Text.drop_addReturns,
          reckons.offset_add bodyPart (Nat.le_of_lt inside), reckons.offset body bodyPart,
          ← Span.moved_ofNats]
        exact congrArg (fun a => Outcome.found (a, _))
          (moved_attribute reckons part rest name _ (some _))
  · split
    · rw [← Text.addReturns_cons noBreak, afterBraces_addReturns 0 (by simp)]
      cases braces : afterBraces 0 none (quote :: body) with
      | found rest =>
          have left := (suffix_of_afterBraces braces).trans (List.suffix_cons quote body)
          have size : (Text.addReturns body).length + 1 =
              (Text.addReturns (quote :: body)).length := by
            rw [Text.addReturns_cons noBreak, List.length_cons]
          dsimp only [Outcome.map]
          rw [size, ← Text.moved_length_sub left, Text.take_addReturns]
          exact congrArg (fun a => Outcome.found (a, _))
            (moved_attribute reckons part (left.trans value) name _ none)
      | refused =>
          rfl
      | exhausted =>
          rfl
    · rfl

/-- The attribute at the start of a part of a region. -/
theorem readAttribute_addReturns (reckons : Reckons source region stop stop')
    (part : t <:+ region) :
    readAttribute stop' (Text.addReturns t) =
      (readAttribute stop t).map fun found => (found.1.moved source, Text.addReturns found.2) := by
  cases t with
  | nil =>
      rfl
  | cons c rest =>
      by_cases isBreak : c = '\n'
      · subst isBreak
        rfl
      · cases starts : isAttributeStart c with
        | false =>
            rw [Text.addReturns_cons isBreak, readAttribute, readAttribute, starts]
            rfl
        | true =>
            have alike := isAttributeRest_breaks.2.trans isAttributeRest_breaks.1.symm
            have name : (Text.addReturns rest).takeWhile isAttributeRest =
                rest.takeWhile isAttributeRest :=
              Text.takeWhile_addReturns_of_stops isAttributeRest_breaks.1 isAttributeRest_breaks.2 _
            have behind : (Text.addReturns rest).dropWhile isAttributeRest =
                Text.addReturns (rest.dropWhile isAttributeRest) :=
              Text.dropWhile_addReturns alike rest
            have left : rest.dropWhile isAttributeRest <:+ region :=
              (List.dropWhile_suffix _).trans ((List.suffix_cons c rest).trans part)
            rw [Text.addReturns_cons isBreak]
            cases found : rest.dropWhile isAttributeRest with
            | nil =>
                rw [found, Text.addReturns_nil] at behind
                rw [readAttribute_unfinished starts (by simp [behind]),
                  readAttribute_unfinished starts (by simp [found])]
                rfl
            | cons d tail =>
                rw [found] at behind left
                by_cases assigned : d = '='
                · subst assigned
                  rw [Text.addReturns_cons (by decide)] at behind
                  cases tail with
                  | nil =>
                      rw [Text.addReturns_nil] at behind
                      rw [readAttribute_unfinished starts (by simp [behind]),
                        readAttribute_unfinished starts (by simp [found])]
                      rfl
                  | cons quote body =>
                      rw [readAttribute_assigned starts found]
                      by_cases quoteBreak : quote = '\n'
                      · subst quoteBreak
                        rw [Text.addReturns_break] at behind
                        rw [readAttribute_assigned starts behind]
                        rfl
                      · rw [Text.addReturns_cons quoteBreak] at behind
                        have value := (List.suffix_cons '=' (quote :: body)).trans left
                        rw [readAttribute_assigned starts behind, name,
                          ← Text.addReturns_cons isBreak]
                        exact readValue_addReturns reckons part _ value quoteBreak
                · have moved := moved_attribute reckons part left
                    (c :: rest.takeWhile isAttributeRest) [] none
                  obtain ⟨next, others, parts, other⟩ := Text.exists_addReturns_cons
                    (p := (· ≠ '=')) tail (fun _ => by decide) (fun _ => assigned)
                  rw [Text.addReturns_cons isBreak] at moved
                  rw [readAttribute_bare starts assigned found,
                    readAttribute_bare starts other (behind.trans parts), name, ← parts]
                  exact congrArg (fun a => Outcome.found (a, _)) moved

/-! ### Tags -/

theorem isNameRest_breaks : isNameRest '\n' = false ∧ isNameRest '\r' = false := by
  decide

theorem tagName?_of_ne {c : Char} (other : c ≠ '<') (t : Text) : tagName? (c :: t) = none := by
  unfold tagName?
  split <;> simp_all

theorem tagName?_addReturns (t : Text) : tagName? (Text.addReturns t) = tagName? t := by
  cases t with
  | nil =>
      rfl
  | cons c rest =>
      by_cases opens : c = '<'
      · subst opens
        rw [Text.addReturns_cons (by decide)]
        cases rest with
        | nil =>
            rfl
        | cons d rest =>
            by_cases isBreak : d = '\n'
            · subst isBreak
              rfl
            · rw [Text.addReturns_cons isBreak, tagName?, tagName?,
                Text.takeWhile_addReturns_of_stops isNameRest_breaks.1 isNameRest_breaks.2]
      · rw [tagName?_of_ne opens]
        by_cases isBreak : c = '\n'
        · subst isBreak
          rfl
        · rw [Text.addReturns_cons isBreak, tagName?_of_ne opens]

/-- A name of a tag: it starts with something other than white space, and no break is in it. -/
structure IsName (name : Text) : Prop where
  starts : ∃ c rest, name = c :: rest ∧ Text.isBlank c = false
  noFeed : '\n' ∉ name
  noReturn : '\r' ∉ name

theorem not_isBlank_of_isUpper {c : Char} (upper : c.isUpper = true) : Text.isBlank c = false := by
  have letters : 'A'.val ≤ c.val ∧ c.val ≤ 'Z'.val := of_decide_eq_true upper
  rw [UInt32.le_iff_toNat_le, UInt32.le_iff_toNat_le] at letters
  have bounds : 65 ≤ c.toNat ∧ c.toNat ≤ 90 := letters
  simp only [Text.isBlank, Bool.or_eq_false_iff, Bool.and_eq_false_iff, decide_eq_false_iff_not,
    beq_eq_false_iff_ne]
  omega

theorem tagName?_isName {name : Text} (named : tagName? t = some name) :
    IsName name ∧ ∃ rest, t = '<' :: name ++ rest := by
  unfold tagName? at named
  split at named
  · rename_i c rest
    split at named
    · rename_i upper
      cases named
      have stays : ∀ {d : Char}, isNameRest d = false → d ∉ rest.takeWhile isNameRest := by
        intro d other member
        have taken := List.all_eq_true.mp List.all_takeWhile d member
        rw [other] at taken
        cases taken
      have first : c ≠ '\n' ∧ c ≠ '\r' := by
        constructor <;> (rintro rfl; cases upper)
      refine ⟨⟨⟨c, _, rfl, not_isBlank_of_isUpper upper⟩, ?_, ?_⟩,
        rest.dropWhile isNameRest, ?_⟩
      · exact List.not_mem_cons_of_ne_of_not_mem first.1.symm (stays isNameRest_breaks.1)
      · exact List.not_mem_cons_of_ne_of_not_mem first.2.symm (stays isNameRest_breaks.2)
      · rw [List.cons_append, List.cons_append, List.takeWhile_append_dropWhile]
    · cases named
  · cases named

/-- The tag that is closed at an offset; its attributes were read in reverse. -/
def closedTag (name : Text) (start tagStop : Nat) (selfClosing : Bool)
    (attributes : List JsxAttribute) : JsxTag :=
  ⟨name, Span.ofNats start tagStop, selfClosing, attributes.reverse⟩

theorem moved_closedTag (name : Text) (start tagStop : Nat) (selfClosing : Bool)
    (attributes : List JsxAttribute) :
    (closedTag name start tagStop selfClosing attributes).moved source =
      closedTag name (Text.moved source start) (Text.moved source tagStop) selfClosing
        (attributes.map (JsxAttribute.moved source)) := by
  simp [closedTag, JsxTag.moved, Span.moved_ofNats, List.map_reverse]

section Body

variable {following : Option Char} {start budget : Nat} {name rest : Text}
  {attributes : List JsxAttribute}

theorem tagBody_nil (left : t.dropWhile Text.isBlank = []) :
    tagBody following start stop name (budget + 1) attributes t = .exhausted := by
  rw [tagBody]
  dsimp only
  rw [left]

theorem tagBody_bracket (left : t.dropWhile Text.isBlank = '>' :: rest) :
    tagBody following start stop name (budget + 1) attributes t =
      .found (closedTag name start (stop - ('>' :: rest).length + 1) false attributes) := by
  rw [tagBody]
  dsimp only
  rw [left]
  rfl

theorem tagBody_slash_bracket (left : t.dropWhile Text.isBlank = '/' :: '>' :: rest) :
    tagBody following start stop name (budget + 1) attributes t =
      .found (closedTag name start (stop - ('/' :: '>' :: rest).length + 2) true attributes) := by
  rw [tagBody]
  dsimp only
  rw [left]
  rfl

theorem tagBody_slash (left : t.dropWhile Text.isBlank = ['/']) :
    tagBody following start stop name (budget + 1) attributes t =
      if following = some '>' then
        .found (closedTag name start (stop - 1 + 2) true attributes)
      else .refused := by
  rw [tagBody]
  dsimp only
  rw [left]
  rfl

theorem tagBody_brace (left : t.dropWhile Text.isBlank = '\x7b' :: rest) :
    tagBody following start stop name (budget + 1) attributes t =
      match afterBraces 0 none ('\x7b' :: rest) with
      | .found rest => tagBody following start stop name budget attributes rest
      | .refused => .refused
      | .exhausted => .exhausted := by
  rw [tagBody]
  dsimp only
  rw [left]
  rfl

theorem tagBody_attribute {c : Char} (left : t.dropWhile Text.isBlank = c :: rest)
    (noBracket : c ≠ '>') (noBrace : c ≠ '\x7b')
    (open' : c = '/' → ∃ d others, rest = d :: others ∧ d ≠ '>') :
    tagBody following start stop name (budget + 1) attributes t =
      match readAttribute stop (c :: rest) with
      | .found (a, rest) => tagBody following start stop name budget (a :: attributes) rest
      | .refused => .refused
      | .exhausted => .exhausted := by
  rw [tagBody]
  dsimp only
  rw [left]
  split
  · simp_all
  · simp_all
  · simp_all
  · simp_all
  · simp_all
  · rfl

/-- How a tag goes on behind blanks: it ends, or something stands in it. -/
inductive TagRest : Text → Prop where
  | nothing : TagRest []
  | bracket (rest : Text) : TagRest ('>' :: rest)
  | selfClosing (rest : Text) : TagRest ('/' :: '>' :: rest)
  | slash : TagRest ['/']
  | brace (rest : Text) : TagRest ('\x7b' :: rest)
  | other {c : Char} {rest : Text} (noBracket : c ≠ '>') (noBrace : c ≠ '\x7b')
      (open' : c = '/' → ∃ d others, rest = d :: others ∧ d ≠ '>') : TagRest (c :: rest)

theorem tagRest : ∀ t, TagRest t
  | [] => .nothing
  | ['/'] => .slash
  | c :: d :: others => by
      by_cases bracket : c = '>'
      · exact bracket ▸ .bracket _
      · by_cases brace : c = '\x7b'
        · exact brace ▸ .brace _
        · by_cases closes : c = '/' ∧ d = '>'
          · exact closes.1 ▸ closes.2 ▸ .selfClosing _
          · exact .other bracket brace fun slash =>
              ⟨d, others, rfl, fun same => closes ⟨slash, same⟩⟩
  | [c] => by
      by_cases bracket : c = '>'
      · exact bracket ▸ .bracket _
      · by_cases brace : c = '\x7b'
        · exact brace ▸ .brace _
        · by_cases slash : c = '/'
          · exact slash ▸ .slash
          · exact .other bracket brace fun same => absurd same slash

theorem open_addReturns (open' : ∃ d others, rest = d :: others ∧ d ≠ '>') :
    ∃ d others, Text.addReturns rest = d :: others ∧ d ≠ '>' := by
  obtain ⟨d, others, rfl, noBracket⟩ := open'
  exact Text.exists_addReturns_cons others (fun _ => by decide) (fun _ => noBracket)

end Body

/-- A mark in which no break stands ends the tag where it should. -/
theorem Reckons.closedTag_moved (reckons : Reckons source region stop stop') (mark : Text)
    {rest : Text} (noBreak : '\n' ∉ mark) (part : mark ++ rest <:+ region) (name : Text)
    (start : Nat) (selfClosing : Bool) (attributes : List JsxAttribute) :
    (closedTag name start (stop - (mark ++ rest).length + mark.length) selfClosing attributes).moved
        source =
      closedTag name (Text.moved source start)
        (stop' - (mark ++ Text.addReturns rest).length + mark.length) selfClosing
        (attributes.map (JsxAttribute.moved source)) := by
  have inside : mark.length ≤ (mark ++ rest).length := by
    rw [List.length_append]
    exact Nat.le_add_right _ _
  have ends := reckons.offset_add part inside
  rw [Text.moved_eq_length inside, List.take_left, Text.addReturns_append,
    Text.addReturns_eq_self noBreak] at ends
  rw [moved_closedTag, ends]

/-- A slash at the end of the region closes the tag behind it. -/
theorem Reckons.slash_stop (reckons : Reckons source region stop stop') (part : ['/'] <:+ region)
    (bracket : Text.moved source (stop + 1) = Text.moved source stop + 1) :
    stop' - 1 + 2 = Text.moved source (stop - 1 + 2) := by
  have ends := reckons.offset_add part (Nat.le_refl 1)
  have inside := part.length_le
  have inside' := (Text.addReturns_suffix part).length_le
  have fits := reckons.inside
  have fits' := reckons.fits
  have slash : Text.addReturns ['/'] = ['/'] := Text.addReturns_eq_self (by decide)
  have one : Text.moved ['/'] 1 = 1 := by
    decide
  rw [slash] at ends inside'
  rw [one, List.length_singleton, show stop - 1 + 1 = stop by simp at inside; omega] at ends
  rw [List.length_singleton] at inside inside'
  rw [show stop - 1 + 2 = stop + 1 by omega, bracket]
  omega

/-- The rest of a tag is read to the end whenever the budget exceeds the length of the text. -/
theorem tagBody_addReturns (reckons : Reckons source region stop stop')
    {following following' : Option Char} (follows : following' = some '>' ↔ following = some '>')
    (bracket : following = some '>' → Text.moved source (stop + 1) = Text.moved source stop + 1)
    (start : Nat) (name : Text) {budget budget' : Nat} (attributes : List JsxAttribute)
    (part : t <:+ region) (enough : t.length < budget)
    (enough' : (Text.addReturns t).length < budget') :
    tagBody following' (Text.moved source start) stop' name budget'
        (attributes.map (JsxAttribute.moved source)) (Text.addReturns t) =
      (tagBody following start stop name budget attributes t).map (JsxTag.moved source) := by
  induction budget generalizing budget' attributes t with
  | zero =>
      exact absurd enough (Nat.not_lt_zero _)
  | succ budget hypothesis =>
      obtain ⟨budget', rfl⟩ := Nat.exists_eq_succ_of_ne_zero (Nat.ne_zero_of_lt enough')
      have skipped : (Text.addReturns t).dropWhile Text.isBlank =
          Text.addReturns (t.dropWhile Text.isBlank) :=
        Text.dropWhile_addReturns (by decide) t
      have leftOf : t.dropWhile Text.isBlank <:+ t := List.dropWhile_suffix _
      have leftPart := leftOf.trans part
      have shorter := leftOf.length_le
      have shorter' := (Text.addReturns_suffix leftOf).length_le
      -- A break is blank, so what is left does not begin with one.
      have solid : ∀ c ∈ (t.dropWhile Text.isBlank).head?, c ≠ '\n' := by
        rintro c first rfl
        have blank := List.head?_dropWhile_not Text.isBlank t
        rw [Option.mem_def.mp first] at blank
        cases blank
      generalize left : t.dropWhile Text.isBlank = behind at skipped leftPart shorter shorter' solid
      cases tagRest behind with
      | nothing =>
          rw [tagBody_nil left, tagBody_nil skipped]
          rfl
      | bracket rest =>
          rw [Text.addReturns_cons (by decide)] at skipped
          rw [tagBody_bracket left, tagBody_bracket skipped]
          exact congrArg Outcome.found
            (reckons.closedTag_moved ['>'] (by decide) leftPart name start false attributes).symm
      | selfClosing rest =>
          rw [Text.addReturns_cons (by decide), Text.addReturns_cons (by decide)] at skipped
          rw [tagBody_slash_bracket left, tagBody_slash_bracket skipped]
          exact congrArg Outcome.found
            (reckons.closedTag_moved ['/', '>'] (by decide) leftPart name start true
              attributes).symm
      | slash =>
          rw [Text.addReturns_eq_self (t := ['/']) (by decide)] at skipped
          rw [tagBody_slash left, tagBody_slash skipped]
          by_cases followed : following = some '>'
          · rw [if_pos followed, if_pos (follows.mpr followed),
              reckons.slash_stop leftPart (bracket followed)]
            exact congrArg Outcome.found (moved_closedTag _ _ _ _ _).symm
          · rw [if_neg followed, if_neg (mt follows.mp followed)]
            rfl
      | brace rest =>
          have grown : afterBraces 0 none (Text.addReturns ('\x7b' :: rest)) = _ :=
            afterBraces_addReturns 0 (by simp) _
          rw [Text.addReturns_cons (by decide)] at skipped grown shorter'
          rw [tagBody_brace left, tagBody_brace skipped, grown]
          cases group : afterBraces 0 none ('\x7b' :: rest) with
          | found behind =>
              have inside := suffix_of_afterBraces group
              have size := inside.length_le
              have size' := (Text.addReturns_suffix inside).length_le
              rw [List.tail_cons] at size size' inside
              rw [List.length_cons] at shorter shorter'
              exact hypothesis attributes
                ((inside.trans (List.suffix_cons _ rest)).trans leftPart) (by omega) (by omega)
          | refused =>
              rfl
          | exhausted =>
              rfl
      | @other c rest noBracket noBrace open' =>
          have noBreak : c ≠ '\n' := solid c rfl
          have grown := readAttribute_addReturns reckons leftPart
          rw [Text.addReturns_cons noBreak] at skipped grown shorter'
          rw [tagBody_attribute left noBracket noBrace open', tagBody_attribute skipped noBracket
            noBrace fun slash => open_addReturns (open' slash), grown]
          cases read : readAttribute stop (c :: rest) with
          | found result =>
              obtain ⟨a, behind⟩ := result
              obtain ⟨inside, less⟩ := suffix_of_readAttribute read
              rw [read] at grown
              have less' : (Text.addReturns behind).length < (c :: Text.addReturns rest).length :=
                (suffix_of_readAttribute grown).2
              exact hypothesis (a :: attributes) (inside.trans leftPart)
                (show behind.length < budget by omega)
                (show (Text.addReturns behind).length < budget' by omega)
          | refused =>
              rfl
          | exhausted =>
              rfl

theorem name_of_tagBody {following : Option Char} {start budget : Nat} {name : Text}
    {attributes : List JsxAttribute} {tag : JsxTag}
    (found : tagBody following start stop name budget attributes t = .found tag) :
    tag.name = name := by
  induction budget generalizing attributes t with
  | zero =>
      cases found
  | succ budget hypothesis =>
      rw [tagBody] at found
      dsimp only at found
      repeat' split at found
      all_goals first
        | exact hypothesis found
        | cases found
      all_goals rfl

theorem tagName?_of_readTag? {start : Nat} {tag : JsxTag}
    (found : readTag? source start stop = some tag) :
    tagName? (Text.slice source start stop) = some tag.name := by
  unfold readTag? readRegion at found
  dsimp only at found
  cases named : tagName? (Text.slice source start stop) with
  | none =>
      rw [named] at found
      cases found
  | some name =>
      rw [named] at found
      dsimp only at found
      split at found
      · rename_i read
        cases found
        rw [name_of_tagBody read]
      · cases found
      · cases found

/-- The tag of a region has a proper name. -/
theorem isName_of_readTag? {start : Nat} {tag : JsxTag}
    (found : readTag? source start stop = some tag) : IsName tag.name :=
  (tagName?_isName (tagName?_of_readTag? found)).1

theorem readRegion_addReturns (source : Text) (start stop : Nat) :
    readRegion (Text.addReturns source) (Text.moved source start) (Text.moved source stop) =
      (readRegion source start stop).map (JsxTag.moved source) := by
  unfold readRegion
  dsimp only
  rw [Text.slice_addReturns, tagName?_addReturns]
  generalize same : Text.slice source start stop = region
  cases named : tagName? region with
  | none =>
      rfl
  | some name =>
      obtain ⟨isName, rest, parts⟩ := tagName?_isName named
      have reckons := reckons_slice source start stop
      rw [same] at reckons
      have here : Text.moved region (name.length + 1) = name.length + 1 := by
        apply Text.moved_of_not_mem
        rw [parts]
        simpa using isName.noFeed
      have behind : (Text.addReturns region).drop (name.length + 1) =
          Text.addReturns (region.drop (name.length + 1)) := by
        rw [← Text.drop_addReturns, here]
      have left : region.drop (name.length + 1) <:+ region := List.drop_suffix _ _
      dsimp only
      rw [behind]
      refine tagBody_addReturns reckons (Text.getElem?_addReturns (by decide) (by decide) stop) ?_
        start name [] left (Nat.lt_succ_of_le left.length_le)
        (Nat.lt_succ_of_le (Text.addReturns_suffix left).length_le)
      intro follows
      obtain ⟨inside, char⟩ := List.getElem?_eq_some_iff.mp follows
      by_cases inOrder : start ≤ stop
      · have size : start + region.length = stop := by
          rw [← same, Text.length_slice]
          omega
        rw [size]
        apply Text.moved_add_of_not_mem
        rw [List.drop_eq_getElem_cons inside, char]
        simp
      · rw [← same, Text.slice, Nat.sub_eq_zero_of_le (Nat.le_of_not_le inOrder)] at parts
        cases parts

theorem readTag?_addReturns (source : Text) (start stop : Nat) :
    readTag? (Text.addReturns source) (Text.moved source start) (Text.moved source stop) =
      (readTag? source start stop).map (JsxTag.moved source) := by
  unfold readTag?
  rw [readRegion_addReturns]
  cases readRegion source start stop <;> rfl

/-! ### Closing tags -/

variable {name : Text}

/-- What stands behind the name in a closing tag. -/
def closingTail? (name inner : Text) : Option Text :=
  if Text.startsWith inner name then
    match (inner.drop name.length).dropWhile Text.isBlank with
    | '>' :: tail => some tail
    | _ => none
  else none

theorem closingTagLength?_of_ne {c : Char} (other : c ≠ '<') (t : Text) :
    closingTagLength? name (c :: t) = none := by
  unfold closingTagLength?
  split <;> simp_all

theorem closingTagLength?_of_ne_slash {c : Char} (other : c ≠ '/') (t : Text) :
    closingTagLength? name ('<' :: c :: t) = none := by
  unfold closingTagLength?
  split <;> simp_all

/-- White space before the name is skipped to the last character, since the name starts with
something else. -/
theorem closingTagLength?_eq (isName : IsName name) (rest : Text) :
    closingTagLength? name ('<' :: '/' :: rest) =
      (closingTail? name (rest.dropWhile Text.isBlank)).map
        fun tail => rest.length + 2 - tail.length := by
  obtain ⟨c, others, rfl, filled⟩ := isName.starts
  have blankBefore : ∀ skipped < Text.countWhile Text.isBlank rest,
      Text.startsWith (rest.drop skipped) (c :: others) = false := by
    intro skipped before
    obtain ⟨d, behind, here, blank⟩ := Text.exists_drop_of_lt_countWhile before
    have other : (c == d) = false := by
      apply beq_false_of_ne
      rintro rfl
      rw [filled] at blank
      cases blank
    rw [here, Text.startsWith, List.isPrefixOf, other, Bool.false_and]
  have attempt : ∀ inner : Text,
      (if Text.startsWith inner (c :: others) then
        match (inner.drop (c :: others).length).dropWhile Text.isBlank with
        | '>' :: tail => some (('<' :: '/' :: rest).length - tail.length)
        | _ => none
      else none) =
        (closingTail? (c :: others) inner).map fun tail => rest.length + 2 - tail.length := by
    intro inner
    unfold closingTail?
    split
    · split <;> rfl
    · rfl
  rw [closingTagLength?, Text.dropWhile_eq_drop_countWhile]
  dsimp only
  rw [List.range_succ, List.reverse_append, List.reverse_singleton, List.singleton_append,
    List.findSome?_cons, List.findSome?_eq_none_iff.mpr]
  · split
    · rename_i here
      exact here.symm.trans (attempt _)
    · rename_i here
      exact here.symm.trans (attempt _)
  · intro skipped member
    rw [List.mem_reverse, List.mem_range] at member
    refine (attempt _).trans ?_
    rw [closingTail?, blankBefore skipped member]
    rfl

theorem closingTail?_addReturns (isName : IsName name) (inner : Text) :
    closingTail? name (Text.addReturns inner) = (closingTail? name inner).map Text.addReturns := by
  unfold closingTail?
  rw [Text.startsWith_addReturns isName.noFeed isName.noReturn]
  split
  · rename_i starts
    obtain ⟨behind, rfl⟩ := List.isPrefixOf_iff_prefix.mp starts
    rw [Text.addReturns_append, Text.addReturns_eq_self isName.noFeed, List.drop_left,
      List.drop_left, Text.dropWhile_addReturns (by decide)]
    cases behind.dropWhile Text.isBlank with
    | nil =>
        rfl
    | cons d tail =>
        by_cases closes : d = '>'
        · subst closes
          rfl
        · by_cases isBreak : d = '\n'
          · subst isBreak
            rfl
          · rw [Text.addReturns_cons isBreak]
            simp_all
  · rfl

theorem suffix_of_closingTail? {inner tail : Text} (found : closingTail? name inner = some tail) :
    tail <:+ inner := by
  unfold closingTail? at found
  split at found
  · split at found
    · rename_i behind
      cases found
      exact (List.suffix_cons '>' tail).trans
        (behind ▸ (List.dropWhile_suffix _).trans (List.drop_suffix _ _))
    · cases found
  · cases found

theorem closingTagLength?_addReturns (isName : IsName name) (t : Text) :
    closingTagLength? name (Text.addReturns t) =
      (closingTagLength? name t).map (Text.moved t) := by
  cases t with
  | nil =>
      rfl
  | cons c rest =>
      by_cases opens : c = '<'
      · subst opens
        rw [Text.addReturns_cons (by decide)]
        cases rest with
        | nil =>
            rfl
        | cons d rest =>
            by_cases slash : d = '/'
            · subst slash
              rw [Text.addReturns_cons (by decide), closingTagLength?_eq isName,
                closingTagLength?_eq isName, Text.dropWhile_addReturns (by decide),
                closingTail?_addReturns isName, Option.map_map, Option.map_map]
              refine Option.map_congr fun tail found => ?_
              have part := (suffix_of_closingTail? found).trans (List.dropWhile_suffix _)
              have whole := part.trans
                ((List.suffix_cons '/' rest).trans (List.suffix_cons '<' ('/' :: rest)))
              have moved := Text.moved_length_sub whole
              rw [Text.addReturns_cons (by decide), Text.addReturns_cons (by decide)] at moved
              exact moved.symm
            · rw [closingTagLength?_of_ne_slash slash]
              by_cases isBreak : d = '\n'
              · subst isBreak
                rfl
              · rw [Text.addReturns_cons isBreak, closingTagLength?_of_ne_slash slash]
                rfl
      · rw [closingTagLength?_of_ne opens]
        by_cases isBreak : c = '\n'
        · subst isBreak
          rfl
        · rw [Text.addReturns_cons isBreak, closingTagLength?_of_ne opens]
          rfl

/-- The first closing tag in a text that stands at an offset of the source. -/
theorem findClosingTag?_addReturns (isName : IsName name) {offset : Nat}
    (here : t <+: source.drop offset) :
    findClosingTag? name (Text.moved source offset) (Text.addReturns t) =
      (findClosingTag? name offset t).map
        fun tag => (Text.moved source tag.1, Text.moved source tag.2) := by
  induction t generalizing offset with
  | nil =>
      rfl
  | cons c rest hypothesis =>
      have moves : ∀ {a : Nat}, a ≤ (c :: rest).length →
          Text.moved source (offset + a) = Text.moved source offset + Text.moved (c :: rest) a := by
        intro a inside
        obtain ⟨behind, parts⟩ := here
        rw [Text.moved_add, ← parts, ← Text.moved_take inside, List.take_left]
      have next : rest <+: source.drop (offset + 1) := by
        obtain ⟨behind, parts⟩ := here
        rw [← List.drop_drop, ← parts]
        exact List.prefix_append rest behind
      have first := moves (a := 1) (by simp)
      have later := hypothesis next
      rw [first] at later
      rw [findClosingTag?]
      by_cases isBreak : c = '\n'
      · subst isBreak
        rw [Text.moved_break_succ, Text.moved_zero] at later
        rw [Text.addReturns_break, findClosingTag?, findClosingTag?,
          closingTagLength?_of_ne (by decide), closingTagLength?_of_ne (by decide),
          closingTagLength?_of_ne (by decide)]
        exact later
      · have closing := closingTagLength?_addReturns isName (c :: rest)
        rw [Text.moved_cons_succ isBreak, Text.moved_zero] at later
        rw [Text.addReturns_cons isBreak] at closing ⊢
        rw [findClosingTag?, closing]
        cases found : closingTagLength? name (c :: rest) with
        | none =>
            exact later
        | some length =>
            dsimp only [Option.map_some]
            rw [moves (closingTagLength?_le found)]

end Jsx

end MdxLocalization
