import MdxLocalization.Proofs.LocalizedAddress

/-!
# Localising a path by its segments

An address is a path of segments between slashes, and perhaps a tail that starts with a quote, a
number sign or a question mark. Localising looks for the language anywhere in the text behind a
slash; what it finds is the first whole segment that is the language. A segment that only begins
with the language is passed over, since a match has to end where a segment ends.
-/

namespace MdxLocalization

/-! ### Templates without escapes -/

namespace Template

theorem readFrom_of_plain (fail : TemplateFault → Nat → TemplateError) {t : Text}
    (plain : '\\' ∉ t) {budget : Nat} (enough : t.length < budget) :
    readFrom fail budget t = .ok (t.map Piece.char) := by
  induction t generalizing budget with
  | nil =>
      cases budget with
      | zero =>
          exact absurd enough (Nat.not_lt_zero _)
      | succ budget =>
          rfl
  | cons c rest hypothesis =>
      cases budget with
      | zero =>
          exact absurd enough (Nat.not_lt_zero _)
      | succ budget =>
          rw [List.mem_cons, not_or] at plain
          have others := hypothesis plain.2 (Nat.lt_of_succ_lt_succ enough)
          rw [readFrom.eq_7 _ _ _ _ fun _ _ same _ => plain.1 same.symm, others]
          rfl

theorem read_of_plain {template : Text} (plain : '\\' ∉ template) :
    read template = .ok (template.map Piece.char) :=
  readFrom_of_plain _ plain (Nat.lt_succ_self _)

theorem expand_map_char (t matched : Text) : expand (t.map Piece.char) matched = t := by
  induction t with
  | nil =>
      rfl
  | cons c rest hypothesis =>
      rw [List.map_cons, expand, List.flatMap_cons]
      exact congrArg (c :: ·) hypothesis

end Template

namespace Url

variable {segment s t rest : Text}

/-! ### Paths -/

/-- The characters between which a path is cut, and those that end it. -/
def isMark (c : Char) : Bool := c ∈ ['/', '"', '\'', '#', '?']

def IsSegment (t : Text) : Prop := ∀ c ∈ t, isMark c = false ∧ c ≠ '\n'

/-- What may follow a path: nothing, or a text that starts with a quote, a number sign or a question
mark. -/
def IsTail (t : Text) : Prop := ∀ c ∈ t.head?, c ∈ ['"', '\'', '#', '?']

instance (t : Text) : Decidable (IsSegment t) :=
  List.decidableBAll (fun c => isMark c = false ∧ c ≠ '\n') t

instance (t : Text) : Decidable (IsTail t) :=
  Option.decidableForallMem t.head?

theorem isSegment_of_tag (tagged : segment.all LanguageTag.isTagChar = true) :
    IsSegment segment := by
  intro c member
  have isTag := List.all_eq_true.mp tagged c member
  constructor
  · by_contra mark
    rw [Bool.not_eq_false, isMark, decide_eq_true_eq] at mark
    simp only [List.mem_cons, List.not_mem_nil, or_false] at mark
    rcases mark with rfl | rfl | rfl | rfl | rfl <;> cases isTag
  · rintro rfl
    cases isTag

theorem IsSegment.slash_not_mem (isSegment : IsSegment s) : '/' ∉ s := by
  intro member
  cases (isSegment '/' member).1

/-- Before a character that does not end the text, a segment ends if the character is a mark. -/
theorem endsSegment_cons {c : Char} (noBreak : c ≠ '\n') : endsSegment (c :: t) = isMark c := by
  rw [endsSegment.eq_3 _ _ fun same _ => noBreak same, isMark, Bool.eq_iff_iff]
  simp [or_assoc]

theorem IsTail.isMark (isTail : IsTail t) : ∀ c ∈ t.head?, isMark c = true := by
  intro c isHead
  exact decide_eq_true (List.mem_cons_of_mem _ (isTail c isHead))

theorem endsSegment_of_marked (marked : ∀ c ∈ t.head?, isMark c = true) :
    endsSegment t = true := by
  cases t with
  | nil =>
      rfl
  | cons c t =>
      have mark := marked c rfl
      have noBreak : c ≠ '\n' := by
        rintro rfl
        cases mark
      rw [endsSegment_cons noBreak, mark]

/-! ### Looking for a segment -/

theorem splitAtSegment?_of_no_slash (noSlash : '/' ∉ s) (rest : Text) :
    splitAtSegment? segment (s ++ rest) =
      (splitAtSegment? segment rest).map fun found => (s ++ found.1, found.2) := by
  induction s with
  | nil =>
      simp
  | cons c s hypothesis =>
      rw [List.mem_cons, not_or] at noSlash
      have other : decide (c = '/') = false := decide_eq_false (Ne.symm noSlash.1)
      rw [List.cons_append, splitAtSegment?_cons, other, Bool.false_and, Bool.false_and,
        if_neg Bool.false_ne_true, hypothesis noSlash.2, Option.map_map]
      rfl

theorem splitAtSegment?_here (ends : endsSegment rest = true) :
    splitAtSegment? segment ('/' :: (segment ++ rest)) = some ([], rest) := by
  have starts : Text.startsWith (segment ++ rest) segment = true :=
    List.isPrefixOf_iff_prefix.mpr (List.prefix_append _ _)
  rw [splitAtSegment?_cons, starts, List.drop_left, ends]
  rfl

/-- Behind a slash stands a segment that is not the one looked for. -/
theorem not_matches_of_ne (wanted : IsSegment segment) (isSegment : IsSegment s)
    (other : s ≠ segment) (marked : ∀ c ∈ rest.head?, isMark c = true) :
    (Text.startsWith (s ++ rest) segment &&
      endsSegment ((s ++ rest).drop segment.length)) = false := by
  by_contra matched
  rw [Bool.not_eq_false, Bool.and_eq_true] at matched
  obtain ⟨starts, ends⟩ := matched
  have part := List.isPrefixOf_iff_prefix.mp starts
  rcases List.prefix_or_prefix_of_prefix part (List.prefix_append s rest) with shorter | longer
  · -- The segment goes on behind what is looked for, with a character that is no mark.
    obtain ⟨more, rfl⟩ := shorter
    cases more with
    | nil =>
        exact other (List.append_nil _)
    | cons c more =>
        obtain ⟨noMark, noBreak⟩ := isSegment c (by simp)
        rw [List.append_assoc, List.drop_left, List.cons_append, endsSegment_cons noBreak,
          noMark] at ends
        cases ends
  · -- What is looked for goes on behind the segment, where only a mark may stand.
    obtain ⟨more, rfl⟩ := longer
    cases more with
    | nil =>
        exact other (List.append_nil _).symm
    | cons c more =>
        obtain ⟨behind, same⟩ := (List.prefix_append_right_inj s).mp part
        have mark := marked c (by rw [← same]; rfl)
        rw [(wanted c (by simp)).1] at mark
        cases mark

theorem splitAtSegment?_of_ne (wanted : IsSegment segment) (isSegment : IsSegment s)
    (other : s ≠ segment) (marked : ∀ c ∈ rest.head?, isMark c = true) :
    splitAtSegment? segment ('/' :: (s ++ rest)) =
      (splitAtSegment? segment rest).map fun found => ('/' :: (s ++ found.1), found.2) := by
  rw [splitAtSegment?_cons, Bool.and_assoc, not_matches_of_ne wanted isSegment other marked,
    Bool.and_false, if_neg Bool.false_ne_true,
    splitAtSegment?_of_no_slash isSegment.slash_not_mem, Option.map_map]
  rfl

theorem splitAtSegment?_of_absent (absent : ¬ '/' :: segment <:+: t) :
    splitAtSegment? segment t = none := by
  cases found : splitAtSegment? segment t with
  | none =>
      rfl
  | some parts =>
      refine absurd ⟨parts.1, parts.2, ?_⟩ absent
      rw [splitAtSegment?_eq_some found, List.append_assoc, List.cons_append]

/-! ### Localising a path -/

/-- The text of segments with a slash before each. -/
def behindSlashes (segments : List Text) (tail : Text) : Text :=
  segments.foldr (fun s rest => '/' :: (s ++ rest)) tail

theorem join_append_eq (first : Text) (segments : List Text) (tail : Text) :
    Text.join ['/'] (first :: segments) ++ tail = first ++ behindSlashes segments tail := by
  induction segments generalizing first with
  | nil =>
      rfl
  | cons s segments hypothesis =>
      rw [Text.join_cons_cons, List.append_assoc, hypothesis, List.append_assoc]
      rfl

theorem head?_behindSlashes (segments : List Text) (isTail : IsTail t) :
    ∀ c ∈ (behindSlashes segments t).head?, isMark c = true := by
  cases segments with
  | nil =>
      exact isTail.isMark
  | cons s segments =>
      rintro c ⟨⟩
      rfl

variable {segments : List Text} {tail : Text}

/-- The first segment that is looked for is found. -/
theorem splitAtSegment?_behindSlashes (wanted : IsSegment segment)
    (each : ∀ s ∈ segments, IsSegment s) (isTail : IsTail tail) (member : segment ∈ segments) :
    ∃ before after, splitAtSegment? segment (behindSlashes segments tail) = some (before, after) ∧
      ∀ instead, before ++ '/' :: (instead ++ after) =
        behindSlashes (segments.replace segment instead) tail := by
  induction segments with
  | nil =>
      cases member
  | cons s segments hypothesis =>
      obtain ⟨here, others⟩ := List.forall_mem_cons.mp each
      have marked := head?_behindSlashes segments isTail
      by_cases same : s = segment
      · subst same
        refine ⟨[], behindSlashes segments tail,
          splitAtSegment?_here (endsSegment_of_marked marked), fun instead => ?_⟩
        rw [List.replace_cons_self]
        rfl
      · obtain ⟨before, after, found, replaced⟩ :=
          hypothesis others ((List.mem_cons.mp member).resolve_left (Ne.symm same))
        refine ⟨'/' :: (s ++ before), after, ?_, fun instead => ?_⟩
        · have step := splitAtSegment?_of_ne wanted here same marked
          rw [found] at step
          exact step
        · have unequal : (segment == s) = false := beq_eq_false_iff_ne.mpr (Ne.symm same)
          rw [List.replace_cons, unequal]
          change '/' :: (s ++ before) ++ _ = '/' :: (s ++ behindSlashes _ tail)
          rw [← replaced instead, List.cons_append, List.append_assoc]

theorem splitAtSegment?_behindSlashes_of_absent (wanted : IsSegment segment)
    (each : ∀ s ∈ segments, IsSegment s) (isTail : IsTail tail) (foreign : segment ∉ segments)
    (absent : ¬ '/' :: segment <:+: tail) :
    splitAtSegment? segment (behindSlashes segments tail) = none := by
  induction segments with
  | nil =>
      exact splitAtSegment?_of_absent absent
  | cons s segments hypothesis =>
      obtain ⟨here, others⟩ := List.forall_mem_cons.mp each
      rw [List.mem_cons, not_or] at foreign
      have step := splitAtSegment?_of_ne wanted here (Ne.symm foreign.1)
        (head?_behindSlashes segments isTail)
      rw [hypothesis others foreign.2] at step
      exact step

/-- In a path the first segment that is the language gives way to the placeholder, and everything
else stays as it is, segments that only begin with the language included. A path without such a
segment stays as it is, unless something in the tail looks like one. -/
theorem localize_path {locale name first : Text}
    (language : LanguageTag.languageCode locale = .ok segment) (plain : '\\' ∉ name)
    (each : ∀ s ∈ first :: segments, IsSegment s) (isTail : IsTail tail) :
    (segment ∈ segments →
      localize locale name (Text.join ['/'] (first :: segments) ++ tail) =
        .ok (Text.join ['/'] (first :: segments.replace segment (placeholder name)) ++ tail)) ∧
    (segment ∉ segments → ¬ '/' :: segment <:+: tail →
      localize locale name (Text.join ['/'] (first :: segments) ++ tail) =
        .ok (Text.join ['/'] (first :: segments) ++ tail)) := by
  obtain ⟨isFirst, others⟩ := List.forall_mem_cons.mp each
  have wanted := isSegment_of_tag (LanguageTag.languageCode_all language)
  have template : Template.read ('/' :: placeholder name) =
      .ok (('/' :: placeholder name).map Template.Piece.char) := by
    apply Template.read_of_plain
    simp [placeholder, plain]
  have start : splitAtSegment? segment (first ++ behindSlashes segments tail) = _ :=
    splitAtSegment?_of_no_slash isFirst.slash_not_mem (behindSlashes segments tail)
  have run (url : Text) : localize locale name url =
      .ok (replaceSegment segment (('/' :: placeholder name).map Template.Piece.char) url) := by
    rw [localize, language, template]
    rfl
  constructor
  · intro member
    obtain ⟨before, after, found, replaced⟩ :=
      splitAtSegment?_behindSlashes wanted others isTail member
    rw [found] at start
    rw [run, join_append_eq, join_append_eq, replaceSegment, start]
    simp only [Option.map_some, Template.expand_map_char]
    rw [← replaced, List.append_assoc, List.append_assoc, List.cons_append]
  · intro foreign absent
    rw [splitAtSegment?_behindSlashes_of_absent wanted others isTail foreign absent] at start
    rw [run, join_append_eq, replaceSegment, start]
    rfl

/-- Behind a segment that only begins with the language, the first of two that are the language
gives way to the placeholder. Where there is none, the address stays as it is. -/
theorem localize_path_repeated :
    localize (Text.ofString "en-US") (Text.ofString "locale")
        (Text.ofString "../english/en/en/a?b=/en") =
      .ok (Text.ofString "../english/%%locale%%/en/a?b=/en") ∧
    localize (Text.ofString "en-US") (Text.ofString "locale") (Text.ofString "en/english#/de") =
      .ok (Text.ofString "en/english#/de") := by
  have language : LanguageTag.languageCode (Text.ofString "en-US") = .ok (Text.ofString "en") :=
    rfl
  have each : ∀ s ∈ [Text.ofString "..", Text.ofString "english", Text.ofString "en",
      Text.ofString "en", Text.ofString "a"], IsSegment s := by
    decide
  have query : IsTail (Text.ofString "?b=/en") := by
    decide
  have eachOther : ∀ s ∈ [Text.ofString "en", Text.ofString "english"], IsSegment s := by
    decide
  have fragment : IsTail (Text.ofString "#/de") := by
    decide
  exact ⟨(localize_path language (by decide) each query).1 (by decide),
    (localize_path language (by decide) eachOther fragment).2 (by decide) (by decide)⟩

end Url

end MdxLocalization
