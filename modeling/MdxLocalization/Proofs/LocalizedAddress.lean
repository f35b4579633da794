import MdxLocalization.Locale.Url
import MdxLocalization.Proofs.LinkSpelling
import MdxLocalization.Proofs.TextPieces

/-!
# What localising an address changes

The segment that gives way to the placeholder is the language of a tag. It has letters, digits,
hyphens and low lines only, whatever the locale is: the subtags of a tag are checked, and what
stands in the place of an obsolete tag is fixed.
-/

namespace MdxLocalization

namespace LanguageTag

/-- The characters that language tags are made of. -/
def isTagChar (c : Char) : Bool := c.isAlphanum || c == '-' || c == '_'

theorem isTagChar_of_normalized {c : Char}
    (tagged : isTagChar (if c = '_' then '-' else c.toLower) = true) : isTagChar c = true := by
  by_cases line : c = '_'
  · rw [line]
    decide
  · rw [if_neg line] at tagged
    unfold Char.toLower at tagged
    split at tagged
    · rename_i upper
      have letter : c.isUpper = true := decide_eq_true upper
      have alphanumeric : c.isAlphanum = true :=
        Bool.or_eq_true_iff.mpr (.inl (Bool.or_eq_true_iff.mpr (.inl letter)))
      rw [isTagChar, alphanumeric]
      rfl
    · exact tagged

theorem all_of_normalize {tag : Text} (tagged : (normalize tag).all isTagChar = true) :
    tag.all isTagChar = true := by
  rw [List.all_eq_true] at tagged ⊢
  intro c member
  exact isTagChar_of_normalized (tagged _ (List.mem_map_of_mem member))

theorem replacements_all : ∀ entry ∈ replacements,
    (Text.ofString entry.1).all isTagChar = true ∧
      (Text.ofString entry.2).all isTagChar = true := by
  decide

theorem replacement?_all {tag other : Text} (found : replacement? tag = some other) :
    tag.all isTagChar = true ∧ other.all isTagChar = true := by
  obtain ⟨name, listed, rfl⟩ := Option.map_eq_some_iff.mp found
  obtain ⟨before, behind, split, -⟩ := List.lookup_eq_some_iff.mp listed
  have checked := replacements_all (Text.toString tag, name) (by simp [split])
  rwa [show Text.ofString (Text.toString tag) = tag from String.toList_ofList] at checked

theorem irregular_all : ∀ name ∈ irregular, (Text.ofString name).all isTagChar = true := by
  decide

/-- Letters and digits outside ASCII pass as subtags, and are refused afterwards. -/
theorem all_of_shaped {tag : Text}
    (shaped : (Text.splitOn '-' tag).find? (fun s => !isWellShaped s) = none)
    (ascii : ¬ tag.any (fun c => 128 ≤ c.toNat)) : tag.all isTagChar = true := by
  refine List.all_eq_true.mpr fun c member => ?_
  by_cases hyphen : c = '-'
  · rw [hyphen]
    rfl
  · obtain ⟨piece, cut, inside⟩ := (Text.mem_iff_mem_splitOn hyphen).mp member
    have fits := List.find?_eq_none.mp shaped piece cut
    have low := List.any_eq_false.mp (Bool.not_eq_true _ ▸ ascii) c member
    simp only [isWellShaped, Bool.not_eq_true, Bool.not_eq_false', Bool.and_eq_true,
      List.all_eq_true, Bool.or_eq_true] at fits
    simp only [isTagChar, Bool.or_eq_true]
    exact .inl (.inl ((fits.2 c inside).resolve_right low))

theorem all_of_mem_splitOn {tag subtag : Text} (tagged : tag.all isTagChar = true)
    (cut : subtag ∈ Text.splitOn '-' tag) : subtag.all isTagChar = true := by
  rw [List.all_eq_true] at tagged ⊢
  intro c member
  have noHyphen : c ≠ '-' := by
    rintro rfl
    exact Text.not_mem_of_mem_splitOn cut member
  exact tagged c ((Text.mem_iff_mem_splitOn noHyphen).mpr ⟨subtag, cut, member⟩)

/-- A tag that can be parsed has no other characters, and so has its first subtag. -/
theorem parse_all {tag first : Text} {extlangs : List Text}
    (found : parse tag = .ok (first, extlangs)) :
    tag.all isTagChar = true ∧ first.all isTagChar = true := by
  unfold parse at found
  split at found
  · rename_i listed
    cases found
    have checked := irregular_all _ (List.contains_iff_mem.mp listed)
    rw [show Text.ofString (Text.toString tag) = tag from String.toList_ofList] at checked
    exact ⟨checked, checked⟩
  · dsimp only at found
    split at found
    · cases found
    · rename_i shaped
      split at found
      · cases found
      · rename_i ascii
        have whole := all_of_shaped shaped ascii
        split at found
        · cases found
          exact ⟨whole, rfl⟩
        · rename_i head rest cut
          have inside := all_of_mem_splitOn whole (cut ▸ List.mem_cons_self)
          split at found
          · split at found
            · cases found
            · cases found
              exact ⟨whole, whole⟩
          · split at found
            · cases read : readSubtags (rest.length + 1) 0 rest with
              | error e =>
                  rw [read] at found
                  cases found
              | ok others =>
                  rw [read] at found
                  cases found
                  exact ⟨whole, inside⟩
            · cases found

theorem frontLanguage_all {tag language : Text} (tagged : tag.all isTagChar = true)
    (found : frontLanguage tag = some language) : language.all isTagChar = true := by
  unfold frontLanguage at found
  dsimp only at found
  split at found
  · cases found
  · cases found
    rw [List.all_eq_true] at tagged ⊢
    intro c member
    exact tagged c (List.takeWhile_subset _ member)

/-- A language, when there is one, has the characters of tags. -/
def Tagged (language : Option Text) : Prop := ∀ l ∈ language, l.all isTagChar = true

theorem Tagged.none : Tagged none := nofun

theorem Tagged.some {language : Text} (tagged : language.all isTagChar = true) :
    Tagged (some language) := by
  rintro _ ⟨⟩
  exact tagged

theorem Tagged.orElse {language other : Option Text} (tagged : Tagged language)
    (otherTagged : Tagged other) : Tagged (language <|> other) := by
  cases language with
  | none =>
      exact otherTagged
  | some l =>
      exact tagged

theorem Tagged.getD {language : Option Text} {other : Text} (tagged : Tagged language)
    (otherTagged : other.all isTagChar = true) : (language.getD other).all isTagChar = true := by
  cases language with
  | none =>
      exact otherTagged
  | some l =>
      exact tagged l rfl

/-- Whatever tag a locale is, its short form has the characters of tags. -/
theorem languageCode_all {locale code : Text} (found : languageCode locale = .ok code) :
    code.all isTagChar = true := by
  unfold languageCode language? at found
  cases read : parse (normalize ((replacement? (normalize locale)).getD locale)) with
  | error e =>
      simp [read, bind, Except.bind, Except.map] at found
  | ok parsed =>
      obtain ⟨first, extlangs⟩ := parsed
      obtain ⟨tagged, firstTagged⟩ := parse_all read
      have localeTagged : locale.all isTagChar = true := by
        refine all_of_normalize ?_
        cases replaced : replacement? (normalize locale) with
        | none =>
            rwa [replaced] at tagged
        | some other =>
            exact (replacement?_all replaced).1
      have fronted {tag language : Text} (known : replacement? tag = some language) :
          Tagged (frontLanguage language) :=
        fun _ found => frontLanguage_all (replacement?_all known).2 found
      dsimp only at found
      rw [read] at found
      cases found
      refine Tagged.getD ?_ ?_
      · refine List.foldlRecOn _ _ ?_ ?_
        · split
          · exact Tagged.none
          · split
            · rename_i other known
              exact fronted known
            · exact Tagged.some firstTagged
        · intro language tagged extlang member
          split
          · exact tagged
          · rename_i l
            split
            · rename_i other known
              exact (fronted known).orElse tagged
            · exact tagged
      · rw [List.all_eq_true] at localeTagged ⊢
        exact fun c member => localeTagged c (List.mem_of_mem_take member)

end LanguageTag

namespace Url

open Inline

/-- Characters that are neither white space nor marks of a destination. -/
def isAddressChar (c : Char) : Bool :=
  LanguageTag.isTagChar c || c == '%'

theorem splitAtSegment?_cons (segment : Text) (c : Char) (rest : Text) :
    splitAtSegment? segment (c :: rest) =
      if c = '/' && Text.startsWith rest segment && endsSegment (rest.drop segment.length) then
        some ([], rest.drop segment.length)
      else (splitAtSegment? segment rest).map fun (before, after) => (c :: before, after) := rfl

theorem splitAtSegment?_eq_some {segment url before after : Text}
    (found : splitAtSegment? segment url = some (before, after)) :
    url = before ++ '/' :: (segment ++ after) := by
  induction url generalizing before with
  | nil =>
      cases found
  | cons c rest hypothesis =>
      rw [splitAtSegment?_cons] at found
      split at found
      · rename_i here
        cases found
        rw [Bool.and_eq_true, Bool.and_eq_true, decide_eq_true_eq] at here
        obtain ⟨⟨rfl, starts⟩, -⟩ := here
        rw [List.nil_append, List.prefix_iff_eq_append.mp (List.isPrefixOf_iff_prefix.mp starts)]
      · obtain ⟨⟨front, behind⟩, later, same⟩ := Option.map_eq_some_iff.mp found
        cases same
        rw [hypothesis later]
        rfl

/-- An address keeps its shape when, if anything, letters and the like behind a slash give way to
others. -/
inductive Readdressed : Text → Text → Prop where
  | refl (url : Text) : Readdressed url url
  | exchange (before after : Text) {segment instead : Text}
      (plain : segment.all isAddressChar = true) (insteadPlain : instead.all isAddressChar = true) :
      Readdressed (before ++ '/' :: (segment ++ after)) (before ++ '/' :: (instead ++ after))

theorem Readdressed.symm {url other : Text} (same : Readdressed url other) :
    Readdressed other url := by
  cases same with
  | refl =>
      exact .refl _
  | exchange before after plain insteadPlain =>
      exact .exchange before after insteadPlain plain

theorem readdressed_of_localize {locale url other : Text}
    (localized : localize locale defaultPlaceholder url = .ok other) : Readdressed url other := by
  have template : Template.read ('/' :: placeholder defaultPlaceholder) =
      .ok (('/' :: Text.ofString "%%locale%%").map Template.Piece.char) :=
    rfl
  unfold localize at localized
  cases code : LanguageTag.languageCode locale with
  | error e =>
      rw [code] at localized
      cases localized
  | ok segment =>
      rw [code, template] at localized
      have replaced : replaceSegment segment
          (('/' :: Text.ofString "%%locale%%").map Template.Piece.char) url = other :=
        Except.ok.inj localized
      unfold replaceSegment at replaced
      split at replaced
      · rename_i before after found
        rw [splitAtSegment?_eq_some found, ← replaced]
        have plain : segment.all isAddressChar = true := by
          have tagged := List.all_eq_true.mp (LanguageTag.languageCode_all code)
          exact List.all_eq_true.mpr fun c member => by rw [isAddressChar, tagged c member]; rfl
        have shown : Template.expand (('/' :: Text.ofString "%%locale%%").map Template.Piece.char)
            ('/' :: segment) = '/' :: Text.ofString "%%locale%%" :=
          rfl
        rw [shown, List.append_assoc]
        exact .exchange before after plain (by decide)
      · rw [← replaced]
        exact .refl url

/-! ### Destinations -/

/-- A character of a placeholder or a language stands between the space and the end of ASCII. -/
theorem isAddressChar_range {c : Char} (address : isAddressChar c = true) :
    0x20 < c.toNat ∧ c.toNat < 0x80 := by
  rw [isAddressChar, LanguageTag.isTagChar, Bool.or_eq_true, Bool.or_eq_true, Bool.or_eq_true,
    beq_iff_eq, beq_iff_eq, beq_iff_eq] at address
  rcases address with ((alphanumeric | rfl) | rfl) | rfl
  · have within : ∀ {low high : UInt32}, 0x20 < low.toNat → high.toNat < 0x80 → low ≤ c.val →
        c.val ≤ high → 0x20 < c.toNat ∧ c.toNat < 0x80 :=
      fun behind before least greatest =>
        ⟨Nat.lt_of_lt_of_le behind least, Nat.lt_of_le_of_lt greatest before⟩
    rcases Bool.or_eq_true_iff.mp alphanumeric with letter | digit
    · rcases Bool.or_eq_true_iff.mp letter with upper | lower
      · have range : c.val ≥ 'A'.val ∧ c.val ≤ 'Z'.val := of_decide_eq_true upper
        exact within (by decide) (by decide) range.1 range.2
      · have range := Bool.and_eq_true_iff.mp lower
        exact within (by decide) (by decide) (of_decide_eq_true range.1)
          (of_decide_eq_true range.2)
    · have range := Bool.and_eq_true_iff.mp digit
      exact within (by decide) (by decide) (of_decide_eq_true range.1) (of_decide_eq_true range.2)
  all_goals decide

/-- A character of a placeholder or a language is no mark of a destination, and no backtick. -/
theorem plain_of_isAddressChar {c : Char} (address : isAddressChar c = true) :
    c ∉ ['\\', '(', ')', '>', tick] ∧ Text.isBlank c = false := by
  constructor
  · intro mark
    simp only [List.mem_cons, List.not_mem_nil, or_false] at mark
    rcases mark with rfl | rfl | rfl | rfl | rfl <;>
      exact absurd address (by decide)
  · obtain ⟨behind, before⟩ := isAddressChar_range address
    simp only [Text.isBlank, Bool.or_eq_false_iff, Bool.and_eq_false_iff, beq_eq_false_iff_ne,
      decide_eq_false_iff_not]
    omega

theorem not_mem_of_all {t : Text} (plain : t.all isAddressChar = true) {c : Char}
    (mark : c ∈ ['\\', '(', ')', '>', tick]) : c ∉ t :=
  fun member => (plain_of_isAddressChar (List.all_eq_true.mp plain c member)).1 mark

theorem bareText_append_iff {depth left : Nat} {segment after : Text}
    (plain : segment.all isAddressChar = true) :
    BareText depth left (segment ++ after) ↔ BareText depth left after := by
  induction segment with
  | nil =>
      rfl
  | cons c segment hypothesis =>
      rw [List.all_cons, Bool.and_eq_true] at plain
      obtain ⟨marks, solid⟩ := plain_of_isAddressChar plain.1
      have noMark : c ∉ ['\\', '(', ')'] := fun member => marks (by simp at member ⊢; tauto)
      rw [List.cons_append, ← hypothesis plain.2]
      generalize segment ++ after = rest
      constructor
      · intro text
        cases text with
        | escape | opens | closes =>
            simp at noMark
        | char _ _ later =>
            exact later
      · exact .char noMark solid

/-- What stands behind a slash can be exchanged, also when the slash is escaped. -/
theorem bareText_behind_slash {depth left : Nat} {before rest instead : Text}
    (text : BareText depth left (before ++ '/' :: rest))
    (later : ∀ depth, BareText depth left rest → BareText depth left instead) :
    BareText depth left (before ++ '/' :: instead) := by
  generalize same : before ++ '/' :: rest = url at text
  induction text generalizing before with
  | nil =>
      simp at same
  | escape c inner hypothesis =>
      match before with
      | [] =>
          cases same
      | [d] =>
          cases same
          exact .escape '/' (later _ inner)
      | d :: e :: before =>
          cases same
          exact .escape _ (hypothesis later rfl)
  | opens inner hypothesis =>
      match before with
      | [] =>
          cases same
      | d :: before =>
          cases same
          exact .opens (hypothesis later rfl)
  | closes inner hypothesis =>
      match before with
      | [] =>
          cases same
      | d :: before =>
          cases same
          exact .closes (hypothesis later rfl)
  | char plain solid inner hypothesis =>
      match before with
      | [] =>
          cases same
          exact .char (by decide) (by decide) (later _ inner)
      | d :: before =>
          cases same
          exact .char plain solid (hypothesis later rfl)

section Readdressed

variable {url u : Text} (same : Readdressed url u)
include same

theorem Readdressed.head? : u.head? = url.head? := by
  cases same with
  | refl =>
      rfl
  | exchange before after plain insteadPlain =>
      cases before <;> rfl

theorem Readdressed.free (free : '>' ∉ url) : '>' ∉ u := by
  cases same with
  | refl =>
      exact free
  | exchange before after plain insteadPlain =>
      have absent := not_mem_of_all insteadPlain (c := '>') (by simp)
      simp only [List.mem_append, List.mem_cons, not_or] at free ⊢
      exact ⟨free.1, free.2.1, absent, free.2.2.2⟩

theorem Readdressed.tickRuns_eq (count : Nat) (front behind : Text) :
    tickRuns count (front ++ (u ++ behind)) = tickRuns count (front ++ (url ++ behind)) := by
  cases same with
  | refl =>
      rfl
  | exchange before after plain insteadPlain =>
      have noTick : '/' ≠ tick := by
        decide
      have cut (segment : Text) (plain : segment.all isAddressChar = true) :
          tickRuns count (front ++ ((before ++ '/' :: (segment ++ after)) ++ behind)) =
            tickRuns count (front ++ before) ++ tickRuns 0 (after ++ behind) := by
        have free := not_mem_of_all plain (c := tick) (by simp)
        rw [← tickRuns_append_of_not_mem free, ← tickRuns_append noTick]
        simp
      rw [cut _ plain, cut _ insteadPlain]

theorem Readdressed.bareText {left : Nat} (text : BareText 0 left url) : BareText 0 left u := by
  cases same with
  | refl =>
      exact text
  | exchange before after plain insteadPlain =>
      refine bareText_behind_slash text fun depth later => ?_
      exact (bareText_append_iff insteadPlain).mpr ((bareText_append_iff plain).mp later)

end Readdressed

end Url

end MdxLocalization
