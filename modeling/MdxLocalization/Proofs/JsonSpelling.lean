import MdxLocalization.Proofs.JsonScalar

/-!
# The texts that spell a JSON value

Writing chooses one text for a value, reading accepts many: the tokens may stand next to each other
or apart. The relation `Json.Spells` lists the spellings of a value with a given kind of white space
between its tokens. What the writer produces is one of them, and the kind of white space says
whether a line break of another form can occur in it.
-/

namespace MdxLocalization.Json

/-! ### The relation -/

/-- What is read in one go: a value, the items of an array up to its closing bracket, or the fields
of an object up to its closing brace. -/
inductive Part where
  | value (j : Json)
  | items (items : List Json)
  | fields (fields : List (Text × Json))

/-- Texts that spell a part of a JSON value. Between tokens stand characters that are `blank`. -/
inductive Spells (blank : Char → Prop) : Part → Text → Prop where
  | null : Spells blank (.value .null) ['n', 'u', 'l', 'l']
  | holds : Spells blank (.value (.bool true)) ['t', 'r', 'u', 'e']
  | fails : Spells blank (.value (.bool false)) ['f', 'a', 'l', 's', 'e']
  | integer {n : Int} (short : n.natAbs < 10 ^ IntegerText.maxDigits) :
      Spells blank (.value (.integer n)) (Text.ofInt n)
  | text (t : Text) : Spells blank (.value (.text t)) (writeText t)
  | noItems : Spells blank (.value (.array [])) ['[', ']']
  | array {gap t : Text} {items : List Json} (gapBlank : ∀ c ∈ gap, blank c)
      (inside : Spells blank (.items items) t) :
      Spells blank (.value (.array items)) ('[' :: (gap ++ t))
  | noFields : Spells blank (.value (.object [])) ['\x7b', '\x7d']
  | object {gap t : Text} {fields : List (Text × Json)} (gapBlank : ∀ c ∈ gap, blank c)
      (distinct : (fields.map Prod.fst).Nodup) (inside : Spells blank (.fields fields) t) :
      Spells blank (.value (.object fields)) ('\x7b' :: (gap ++ t))
  | lastItem {gap t : Text} {item : Json} (spelled : Spells blank (.value item) t)
      (gapBlank : ∀ c ∈ gap, blank c) :
      Spells blank (.items [item]) (t ++ (gap ++ [']']))
  | nextItem {gap t u : Text} {item : Json} {items : List Json}
      (spelled : Spells blank (.value item) t) (gapBlank : ∀ c ∈ gap, blank c)
      (others : Spells blank (.items items) u) :
      Spells blank (.items (item :: items)) (t ++ ',' :: (gap ++ u))
  | lastField {before after t name : Text} {value : Json}
      (spelled : Spells blank (.value value) t) (beforeBlank : ∀ c ∈ before, blank c)
      (afterBlank : ∀ c ∈ after, blank c) :
      Spells blank (.fields [(name, value)])
        (writeText name ++ ':' :: (before ++ (t ++ (after ++ ['\x7d']))))
  | nextField {before after t u name : Text} {value : Json} {fields : List (Text × Json)}
      (spelled : Spells blank (.value value) t) (beforeBlank : ∀ c ∈ before, blank c)
      (afterBlank : ∀ c ∈ after, blank c) (others : Spells blank (.fields fields) u) :
      Spells blank (.fields ((name, value) :: fields))
        (writeText name ++ ':' :: (before ++ (t ++ ',' :: (after ++ u))))

/-! ### Line breaks -/

theorem not_mem_escapeChar (c : Char) : '\n' ∉ escapeChar c ∧ '\r' ∉ escapeChar c := by
  unfold escapeChar
  split_ifs with quote backslash lineFeed carriageReturn tab backspace formFeed control
  all_goals try decide
  · have hexadecimal : ∀ n < 32, '\n' ∉ '\\' :: 'u' :: Text.hexPadded 4 n ∧
        '\r' ∉ '\\' :: 'u' :: Text.hexPadded 4 n := by
      decide
    exact hexadecimal c.toNat control
  · simp only [List.mem_singleton]
    exact ⟨Ne.symm lineFeed, Ne.symm carriageReturn⟩

theorem writeText_noLineBreak (t : Text) : ∀ d ∈ writeText t, d ≠ '\n' ∧ d ≠ '\r' := by
  intro d member
  rw [writeText, List.mem_append, List.mem_cons, List.mem_singleton, List.mem_flatMap] at member
  rcases member with (rfl | ⟨c, -, escaped⟩) | rfl
  · decide
  · obtain ⟨noLineFeed, noReturn⟩ := not_mem_escapeChar c
    exact ⟨ne_of_mem_of_not_mem escaped noLineFeed, ne_of_mem_of_not_mem escaped noReturn⟩
  · decide

theorem not_mem_ofInt {b : Char} (noDigit : b.isDigit = false) (noSign : b ≠ '-') (n : Int) :
    b ∉ Text.ofInt n := by
  have natural : ∀ k : Nat, b ∉ Text.ofNat k := by
    intro k member
    rw [isDigit_of_mem_ofNat member] at noDigit
    exact absurd noDigit (by decide)
  cases n with
  | ofNat n =>
      exact natural n
  | negSucc n =>
      simpa [Text.ofInt, noSign] using natural (n + 1)

/-- When no carriage return stands between tokens, there is none in the whole text. -/
theorem Spells.return_not_mem {blank : Char → Prop} {part : Part} {t : Text}
    (spelled : Spells blank part t) (visible : ¬ blank '\r') : '\r' ∉ t := by
  have free : ∀ {gap : Text}, (∀ c ∈ gap, blank c) → '\r' ∉ gap :=
    fun gapBlank member => visible (gapBlank _ member)
  have strings : ∀ u, '\r' ∉ writeText u := fun u member => (writeText_noLineBreak u _ member).2 rfl
  induction spelled with
  | null | holds | fails | noItems | noFields =>
      decide
  | integer short =>
      exact not_mem_ofInt (by decide) (by decide) _
  | text t =>
      exact strings t
  | array gapBlank inside hypothesis =>
      simp [free gapBlank, hypothesis]
  | object gapBlank distinct inside hypothesis =>
      simp [free gapBlank, hypothesis]
  | lastItem spelled gapBlank hypothesis =>
      simp [free gapBlank, hypothesis]
  | nextItem spelled gapBlank others hypothesis othersHypothesis =>
      simp [free gapBlank, hypothesis, othersHypothesis]
  | lastField spelled beforeBlank afterBlank hypothesis =>
      simp [strings, free beforeBlank, free afterBlank, hypothesis]
  | nextField spelled beforeBlank afterBlank others hypothesis othersHypothesis =>
      simp [strings, free beforeBlank, free afterBlank, hypothesis,
        othersHypothesis]

theorem normalizeBreaks_of_not_mem {t : Text} (free : '\r' ∉ t) : Text.normalizeBreaks t = t := by
  induction t with
  | nil =>
      rfl
  | cons c t hypothesis =>
      rw [List.mem_cons, not_or] at free
      rw [Text.normalizeBreaks.eq_4, hypothesis free.2]
      · rintro rest rfl -
        exact free.1 rfl
      · rintro rfl
        exact free.1 rfl

/-! ### What the writer produces -/

/-- The values that writing loses nothing of: no floating-point numbers, no integers that are too
long to read, and no field named twice. -/
inductive Faithful : Json → Prop where
  | null : Faithful .null
  | bool (b : Bool) : Faithful (.bool b)
  | integer {n : Int} (short : n.natAbs < 10 ^ IntegerText.maxDigits) : Faithful (.integer n)
  | text (t : Text) : Faithful (.text t)
  | array {items : List Json} (each : ∀ item ∈ items, Faithful item) : Faithful (.array items)
  | object {fields : List (Text × Json)} (distinct : (fields.map Prod.fst).Nodup)
      (each : ∀ field ∈ fields, Faithful field.2) : Faithful (.object fields)

/-- The white space that the writer uses. -/
def LayoutBlank (c : Char) : Prop := c = ' ' ∨ c = '\n'

namespace Layout

theorem lineBreak_blank (width depth : Nat) : ∀ c ∈ lineBreak width depth, LayoutBlank c := by
  intro c member
  rcases List.mem_cons.mp member with isBreak | padded
  · exact Or.inr isBreak
  · exact Or.inl (List.eq_of_mem_replicate padded)

theorem opening_blank (layout : Layout) (depth : Nat) :
    ∀ c ∈ layout.opening depth, LayoutBlank c := by
  cases layout with
  | compact =>
      simp [opening]
  | spaced =>
      simp [opening]
  | indented width =>
      exact lineBreak_blank width depth

theorem colon_blank (layout : Layout) :
    ∃ gap, layout.colon = ':' :: gap ∧ ∀ c ∈ gap, LayoutBlank c := by
  cases layout with
  | compact =>
      exact ⟨[], rfl, by simp⟩
  | spaced =>
      exact ⟨[' '], rfl, by simp [LayoutBlank]⟩
  | indented width =>
      exact ⟨[' '], rfl, by simp [LayoutBlank]⟩

theorem separator_blank (layout : Layout) (depth : Nat) :
    ∃ gap, layout.separator depth = ',' :: gap ∧ ∀ c ∈ gap, LayoutBlank c := by
  cases layout with
  | compact =>
      exact ⟨[], rfl, by simp⟩
  | spaced =>
      exact ⟨[' '], rfl, by simp [LayoutBlank]⟩
  | indented width =>
      exact ⟨_, rfl, lineBreak_blank width depth⟩

end Layout

variable (layout : Layout)

theorem writeItems_cons (depth : Nat) (item : Json) (items : List Json) :
    writeItems layout depth (item :: items) =
      layout.separator depth ++ writeAt layout depth item ++ writeItems layout depth items := rfl

/-- Items that are spelled one by one make a spelling of the list. -/
theorem spells_items (depth : Nat) (item : Json) (items : List Json)
    (each : ∀ j ∈ item :: items, Spells LayoutBlank (.value j) (writeAt layout (depth + 1) j)) :
    Spells LayoutBlank (.items (item :: items))
      (writeAt layout (depth + 1) item ++ (writeItems layout (depth + 1) items ++
        (layout.closing depth ++ [']']))) := by
  induction items generalizing item with
  | nil =>
      exact .lastItem (each item List.mem_cons_self) (layout.opening_blank depth)
  | cons next items hypothesis =>
      obtain ⟨gap, separator, gapBlank⟩ := layout.separator_blank (depth + 1)
      have others := hypothesis next fun j member => each j (List.mem_cons_of_mem item member)
      have spelled := each item List.mem_cons_self
      rw [writeItems_cons, separator]
      simpa only [List.append_assoc, List.cons_append] using .nextItem spelled gapBlank others

theorem writeFields_cons (depth : Nat) (name : Text) (value : Json)
    (fields : List (Text × Json)) :
    writeFields layout depth ((name, value) :: fields) =
      layout.separator depth ++ writeText name ++ layout.colon ++ writeAt layout depth value ++
        writeFields layout depth fields := rfl

/-- Fields that are spelled one by one make a spelling of the list. -/
theorem spells_fields (depth : Nat) (field : Text × Json) (fields : List (Text × Json))
    (each : ∀ f ∈ field :: fields,
      Spells LayoutBlank (.value f.2) (writeAt layout (depth + 1) f.2)) :
    Spells LayoutBlank (.fields (field :: fields))
      (writeText field.1 ++ (layout.colon ++ (writeAt layout (depth + 1) field.2 ++
        (writeFields layout (depth + 1) fields ++ (layout.closing depth ++ ['\x7d']))))) := by
  obtain ⟨before, colon, beforeBlank⟩ := layout.colon_blank
  induction fields generalizing field with
  | nil =>
      have spelled := each field List.mem_cons_self
      rw [colon]
      exact .lastField spelled beforeBlank (layout.opening_blank depth)
  | cons next fields hypothesis =>
      obtain ⟨after, separator, afterBlank⟩ := layout.separator_blank (depth + 1)
      have others := hypothesis next fun f member => each f (List.mem_cons_of_mem field member)
      have spelled := each field List.mem_cons_self
      obtain ⟨name, value⟩ := next
      rw [writeFields_cons, separator, colon]
      rw [colon] at others
      simpa only [List.append_assoc, List.cons_append] using
        Spells.nextField spelled beforeBlank afterBlank others

theorem writeAt_array (depth : Nat) (item : Json) (items : List Json) :
    writeAt layout depth (.array (item :: items)) =
      '[' :: layout.opening (depth + 1) ++ writeAt layout (depth + 1) item ++
        writeItems layout (depth + 1) items ++ layout.closing depth ++ [']'] := rfl

theorem writeAt_object (depth : Nat) (name : Text) (value : Json)
    (fields : List (Text × Json)) :
    writeAt layout depth (.object ((name, value) :: fields)) =
      '\x7b' :: layout.opening (depth + 1) ++ writeText name ++ layout.colon ++
        writeAt layout (depth + 1) value ++ writeFields layout (depth + 1) fields ++
        layout.closing depth ++ ['\x7d'] := rfl

/-- A faithful value is written as one of its spellings, at every depth. -/
theorem Faithful.spells {j : Json} (faithful : Faithful j) (depth : Nat) :
    Spells LayoutBlank (.value j) (writeAt layout depth j) := by
  induction faithful generalizing depth with
  | null =>
      exact .null
  | bool b =>
      cases b with
      | true => exact .holds
      | false => exact .fails
  | integer short =>
      exact .integer short
  | text t =>
      exact .text t
  | @array items each hypothesis =>
      cases items with
      | nil =>
          exact .noItems
      | cons item items =>
          have inside := spells_items layout depth item items
            fun j member => hypothesis j member (depth + 1)
          rw [writeAt_array]
          simpa only [List.append_assoc, List.cons_append] using
            Spells.array (layout.opening_blank (depth + 1)) inside
  | @object fields distinct each hypothesis =>
      cases fields with
      | nil =>
          exact .noFields
      | cons field fields =>
          have inside := spells_fields layout depth field fields
            fun f member => hypothesis f member (depth + 1)
          obtain ⟨name, value⟩ := field
          rw [writeAt_object]
          simpa only [List.append_assoc, List.cons_append] using
            Spells.object (layout.opening_blank (depth + 1)) distinct inside

end MdxLocalization.Json
