import MdxLocalization.Proofs.PayloadRoundTrip

/-!
# Payloads and the line breaks of their files

On its way a JSON file may have its line breaks rewritten. Only the white space between tokens is
touched by this, because a string never holds a line break as it stands: the writer escapes it. So
rewriting turns one spelling of a value into another one, and what is read stays the same, even when
the texts of the changes are full of line breaks of both kinds.
-/

namespace MdxLocalization

namespace Text

/-- The text with `ending` in the place of each line feed. -/
def withLineEnding (ending : Text) (t : Text) : Text :=
  t.flatMap fun c => if c = '\n' then ending else [c]

variable {ending : Text}

theorem withLineEnding_append (t u : Text) :
    withLineEnding ending (t ++ u) = withLineEnding ending t ++ withLineEnding ending u :=
  List.flatMap_append

theorem withLineEnding_cons {c : Char} (other : c ≠ '\n') (t : Text) :
    withLineEnding ending (c :: t) = c :: withLineEnding ending t := by
  rw [withLineEnding, List.flatMap_cons, if_neg other]
  rfl

theorem withLineEnding_of_not_mem {t : Text} (free : '\n' ∉ t) : withLineEnding ending t = t := by
  induction t with
  | nil =>
      rfl
  | cons c t hypothesis =>
      rw [List.mem_cons, not_or] at free
      rw [withLineEnding_cons (Ne.symm free.1), hypothesis free.2]

/-- Bringing breaks of two characters to one form undoes the rewriting. -/
theorem normalizeBreaks_withLineEnding {t : Text} (free : '\r' ∉ t) :
    normalizeBreaks (withLineEnding ['\r', '\n'] t) = t := by
  induction t with
  | nil =>
      rfl
  | cons c t hypothesis =>
      rw [List.mem_cons, not_or] at free
      by_cases isBreak : c = '\n'
      · subst isBreak
        change normalizeBreaks ('\r' :: '\n' :: withLineEnding _ t) = _
        rw [normalizeBreaks, hypothesis free.2]
      · rw [withLineEnding_cons isBreak, normalizeBreaks.eq_4, hypothesis free.2]
        · rintro rest rfl -
          exact free.1 rfl
        · rintro rfl
          exact free.1 rfl

end Text

namespace Json

/-! ### Spellings with other line breaks -/

variable {ending : Text}

theorem isSpace_withLineEnding (spaces : ∀ c ∈ ending, isSpace c = true) {gap : Text}
    (gapBlank : ∀ c ∈ gap, LayoutBlank c) :
    ∀ c ∈ Text.withLineEnding ending gap, isSpace c = true := by
  intro c member
  obtain ⟨d, inGap, fromBreak⟩ := List.mem_flatMap.mp member
  split at fromBreak
  · exact spaces c fromBreak
  · rw [List.mem_singleton.mp fromBreak]
    exact isSpace_of_layoutBlank d (gapBlank d inGap)

/-- Rewriting the line breaks between tokens gives a spelling of the same part. -/
theorem Spells.withLineEnding (spaces : ∀ c ∈ ending, isSpace c = true) {part : Part} {t : Text}
    (spelled : Spells LayoutBlank part t) :
    Spells (fun c => isSpace c = true) part (Text.withLineEnding ending t) := by
  have mark : ∀ {c : Char}, c ∈ [',', ':', '[', ']', '\x7b', '\x7d'] → ∀ u : Text,
      Text.withLineEnding ending (c :: u) = c :: Text.withLineEnding ending u := by
    intro c isMark u
    apply Text.withLineEnding_cons
    rintro rfl
    exact absurd isMark (by decide)
  have strings : ∀ u, '\n' ∉ writeText u := fun u member => (writeText_noLineBreak u _ member).1 rfl
  have nothing : Text.withLineEnding ending [] = [] := rfl
  induction spelled with
  | null =>
      exact .null
  | holds =>
      exact .holds
  | fails =>
      exact .fails
  | @integer n short =>
      rw [Text.withLineEnding_of_not_mem (not_mem_ofInt (by decide) (by decide) n)]
      exact .integer short
  | text t =>
      rw [Text.withLineEnding_of_not_mem (strings t)]
      exact .text t
  | noItems =>
      exact .noItems
  | array gapBlank inside hypothesis =>
      rw [mark (by decide), Text.withLineEnding_append]
      exact .array (isSpace_withLineEnding spaces gapBlank) hypothesis
  | noFields =>
      exact .noFields
  | object gapBlank distinct inside hypothesis =>
      rw [mark (by decide), Text.withLineEnding_append]
      exact .object (isSpace_withLineEnding spaces gapBlank) distinct hypothesis
  | lastItem spelled gapBlank hypothesis =>
      simp only [Text.withLineEnding_append, mark (show ']' ∈ _ by decide), nothing]
      exact .lastItem hypothesis (isSpace_withLineEnding spaces gapBlank)
  | nextItem spelled gapBlank others hypothesis othersHypothesis =>
      simp only [Text.withLineEnding_append, mark (show ',' ∈ _ by decide)]
      exact .nextItem hypothesis (isSpace_withLineEnding spaces gapBlank) othersHypothesis
  | @lastField before after t name value spelled beforeBlank afterBlank hypothesis =>
      simp only [Text.withLineEnding_append, mark (show ':' ∈ _ by decide),
        mark (show '\x7d' ∈ _ by decide), nothing,
        Text.withLineEnding_of_not_mem (strings name)]
      exact .lastField hypothesis (isSpace_withLineEnding spaces beforeBlank)
        (isSpace_withLineEnding spaces afterBlank)
  | @nextField before after t u name value fields spelled beforeBlank afterBlank others hypothesis
      othersHypothesis =>
      simp only [Text.withLineEnding_append, mark (show ':' ∈ _ by decide),
        mark (show ',' ∈ _ by decide),
        Text.withLineEnding_of_not_mem (strings name)]
      exact .nextField hypothesis (isSpace_withLineEnding spaces beforeBlank)
        (isSpace_withLineEnding spaces afterBlank) othersHypothesis

/-- A faithful value is read back also when the line breaks of its text have been rewritten. -/
theorem read_withLineEnding {j : Json} (faithful : Faithful j) (layout : Layout)
    (spaces : ∀ c ∈ ending, isSpace c = true) :
    read (Text.withLineEnding ending (write layout j)) = .ok j :=
  ((faithful.spells layout 0).withLineEnding spaces).read_eq fun _ blank => blank

end Json

namespace Payload

/-- Whatever the layout, the changes of a payload are read back as they were written: from the text
itself, after its line breaks were brought to one form, after they were made of two characters each,
and after both. -/
theorem read_write_lineBreaks {changes : List Change} (readable : ∀ c ∈ changes, c.Readable)
    (layout : Json.Layout) :
    read (write layout changes) = .ok changes ∧
      read (Text.normalizeBreaks (write layout changes)) = .ok changes ∧
      read (Text.withLineEnding ['\r', '\n'] (write layout changes)) = .ok changes ∧
      read (Text.normalizeBreaks (Text.withLineEnding ['\r', '\n'] (write layout changes))) =
        .ok changes := by
  have written := read_write readable layout
  have faithful := faithful_toJson readable
  have visible : ¬ Json.LayoutBlank '\r' := by simp [Json.LayoutBlank]
  have free : '\r' ∉ write layout changes := (faithful.spells layout 0).return_not_mem visible
  refine ⟨written, ?_, ?_, ?_⟩
  · rw [normalizeBreaks_write readable layout]
    exact written
  · unfold read
    rw [write, Json.read_withLineEnding faithful layout (by simp [Json.isSpace])]
    exact ofJson_toJson changes
  · rw [Text.normalizeBreaks_withLineEnding free]
    exact written

/-- Two changes with line breaks, quotes and backslashes in their texts, one of them in a place that
no document has, written over several lines. -/
theorem read_write_lineBreaks_escaped :
    let changes : List Change :=
      [⟨.content, Text.ofString "a\r\n\"b\"\\n\x0c", ⟨0, 1000000000000⟩, []⟩,
        ⟨.directiveLabel, ['\n'], ⟨-7, -70⟩, Text.ofString "title\rfor"⟩]
    (∀ c ∈ changes, c.Readable) ∧
      read (write (.indented 0) changes) = .ok changes ∧
      read (Text.withLineEnding ['\r', '\n'] (write (.indented 0) changes)) = .ok changes := by
  intro changes
  have readable : ∀ c ∈ changes, c.Readable := by
    simp only [changes, List.forall_mem_cons, Change.Readable]
    refine ⟨⟨?_, ?_⟩, ⟨?_, ?_⟩, fun _ none => nomatch none⟩ <;> decide +kernel
  obtain ⟨written, -, rewritten, -⟩ := read_write_lineBreaks readable (.indented 0)
  exact ⟨readable, written, rewritten⟩

end Payload

end MdxLocalization
