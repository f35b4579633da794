import MdxLocalization.Proofs.JsonSpelling

/-!
# Reading back what was written

Every spelling of a value is read as that value. The readers go through a text from the front, so
the statement for each kind of part says what is read and what is left; it follows by induction on
the spelling. The budget only has to reach the length of the part.
-/

namespace MdxLocalization.Json

/-! ### White space -/

theorem skipSpace_eq (t : Text) : skipSpace t = t.dropWhile isSpace := rfl

theorem skipSpace_mark {c : Char} (token : isSpace c = false) (t : Text) :
    skipSpace (c :: t) = c :: t := by
  rw [skipSpace_eq, List.dropWhile_cons_of_neg]
  simp [token]

theorem skipSpace_append {gap t : Text} (spaces : ∀ c ∈ gap, isSpace c = true) {c : Char}
    (token : isSpace c = false) : skipSpace (gap ++ c :: t) = c :: t := by
  rw [skipSpace_eq, List.dropWhile_append_of_pos spaces, ← skipSpace_eq, skipSpace_mark token]

theorem closes_append {gap rest : Text} (spaces : ∀ c ∈ gap, isSpace c = true)
    (closes : Closes rest) : Closes (gap ++ rest) := by
  cases gap with
  | nil =>
      exact closes
  | cons c gap =>
      exact closes_cons (.inl (spaces c List.mem_cons_self))

/-! ### Parts -/

/-- A text starts with a token that opens a value or a field. -/
def Opens (t : Text) : Prop :=
  ∃ c u, t = c :: u ∧ isSpace c = false ∧ c ≠ ']' ∧ c ≠ '\x7d' ∧ c ≠ '\uFEFF'

theorem Opens.append {t : Text} (opens : Opens t) (rest : Text) : Opens (t ++ rest) := by
  obtain ⟨c, u, rfl, token⟩ := opens
  exact ⟨c, u ++ rest, rfl, token⟩

theorem Opens.length_pos {t : Text} (opens : Opens t) : 0 < t.length := by
  obtain ⟨c, u, rfl, -⟩ := opens
  exact Nat.succ_pos _

theorem Opens.exists_budget {t : Text} (opens : Opens t) {budget : Nat}
    (enough : t.length ≤ budget) : ∃ less, budget = less + 1 :=
  Nat.exists_eq_add_of_le' (Nat.le_trans opens.length_pos enough)

theorem Opens.skipSpace_eq {gap t : Text} (opens : Opens t)
    (spaces : ∀ c ∈ gap, isSpace c = true) : skipSpace (gap ++ t) = t := by
  obtain ⟨c, u, rfl, token, -⟩ := opens
  exact skipSpace_append spaces token

theorem opens_bracket (t : Text) : Opens ('[' :: t) :=
  ⟨'[', t, rfl, by decide⟩

theorem opens_brace (t : Text) : Opens ('\x7b' :: t) :=
  ⟨'\x7b', t, rfl, by decide⟩

theorem opens_writeText (t : Text) : Opens (writeText t) :=
  ⟨'"', t.flatMap escapeChar ++ ['"'], rfl, by decide⟩

theorem opens_ofInt (n : Int) : Opens (Text.ofInt n) := by
  have digits : ∀ k : Nat, Opens (Text.ofNat k) := by
    intro k
    obtain ⟨c, u, written, digit⟩ := ofNat_head k
    refine ⟨c, u, written, ?_, ?_, ?_, ?_⟩
    · simp only [isSpace, Bool.or_eq_false_iff, beq_eq_false_iff_ne]
      refine ⟨⟨⟨?_, ?_⟩, ?_⟩, ?_⟩ <;> (rintro rfl; exact absurd digit (by decide))
    all_goals (rintro rfl; exact absurd digit (by decide))
  cases n with
  | ofNat n =>
      exact digits n
  | negSucc n =>
      exact ⟨'-', Text.ofNat (n + 1), rfl, by decide⟩

/-- A text is read as a part, up to whatever follows. Fields are added to fields with other names
that were read before. -/
def Reads : Part → Text → Prop
  | .value j, t =>
    Opens t ∧ ∀ budget rest, t.length ≤ budget → Closes rest →
      readValue budget (t ++ rest) = .ok (j, rest)
  | .items items, t =>
    Opens t ∧ ∀ budget rest, t.length ≤ budget →
      readItems budget (t ++ rest) = .ok (items, rest)
  | .fields fields, t =>
    Opens t ∧ ∀ budget earlier rest, t.length ≤ budget →
      ((earlier ++ fields).map Prod.fst).Nodup →
      readFields budget earlier (t ++ rest) = .ok (earlier ++ fields, rest)

theorem setField_of_not_mem {name : Text} {value : Json} {fields : List (Text × Json)}
    (new : name ∉ fields.map Prod.fst) :
    setField name value fields = fields ++ [(name, value)] := by
  induction fields with
  | nil =>
      rfl
  | cons field fields hypothesis =>
      obtain ⟨key, old⟩ := field
      rw [List.map_cons, List.mem_cons, not_or] at new
      rw [setField, if_neg (Ne.symm new.1), hypothesis new.2, List.cons_append]

/-! ### One part at a time -/

theorem readValue_succ (budget : Nat) (t : Text) :
    readValue (budget + 1) t =
      match t with
      | '"' :: rest => (readString t.length rest).map fun (s, rest) => (.text s, rest)
      | '[' :: rest =>
        match skipSpace rest with
        | ']' :: rest => .ok (.array [], rest)
        | start => (readItems budget start).map fun (items, rest) => (.array items, rest)
      | '\x7b' :: rest =>
        match skipSpace rest with
        | '\x7d' :: rest => .ok (.object [], rest)
        | start => (readFields budget [] start).map fun (fields, rest) => (.object fields, rest)
      | _ =>
        match readConstant? t with
        | some found => .ok found
        | none => readNumber t := rfl

theorem readValue_unmarked (budget : Nat) {t : Text}
    (unmarked : ∀ c u, t = c :: u → c ≠ '"' ∧ c ≠ '[' ∧ c ≠ '\x7b') :
    readValue (budget + 1) t =
      match readConstant? t with
      | some found => .ok found
      | none => readNumber t := by
  rw [readValue_succ]
  split
  · exact absurd rfl (unmarked _ _ rfl).1
  · exact absurd rfl (unmarked _ _ rfl).2.1
  · exact absurd rfl (unmarked _ _ rfl).2.2
  · rfl

theorem readValue_quote (budget : Nat) (rest : Text) :
    readValue (budget + 1) ('"' :: rest) =
      (readString (rest.length + 1) rest).map fun (s, rest) => (.text s, rest) :=
  readValue_succ budget ('"' :: rest)

theorem readValue_bracket (budget : Nat) (rest : Text) :
    readValue (budget + 1) ('[' :: rest) =
      match skipSpace rest with
      | ']' :: rest => .ok (.array [], rest)
      | start => (readItems budget start).map fun (items, rest) => (.array items, rest) :=
  readValue_succ budget ('[' :: rest)

theorem readValue_brace (budget : Nat) (rest : Text) :
    readValue (budget + 1) ('\x7b' :: rest) =
      match skipSpace rest with
      | '\x7d' :: rest => .ok (.object [], rest)
      | start => (readFields budget [] start).map fun (fields, rest) => (.object fields, rest) :=
  readValue_succ budget ('\x7b' :: rest)

theorem readItems_succ (budget : Nat) (t : Text) :
    readItems (budget + 1) t = (do
      let (item, rest) ← readValue budget t
      match skipSpace rest with
      | ']' :: rest => return ([item], rest)
      | ',' :: rest =>
        let (items, rest) ← readItems budget (skipSpace rest)
        return (item :: items, rest)
      | rest => .error (.fault .expectedComma rest.length)) := rfl

theorem readFields_quote (budget : Nat) (earlier : List (Text × Json)) (rest : Text) :
    readFields (budget + 1) earlier ('"' :: rest) = (do
      let (name, rest) ← readString (rest.length + 1) rest
      match skipSpace rest with
      | ':' :: rest =>
        let (value, rest) ← readValue budget (skipSpace rest)
        match skipSpace rest with
        | '\x7d' :: rest => return (setField name value earlier, rest)
        | ',' :: rest => readFields budget (setField name value earlier) (skipSpace rest)
        | rest => .error (.fault .expectedComma rest.length)
      | rest => .error (.fault .expectedColon rest.length)) := rfl

variable {budget : Nat} {rest : Text}

theorem readValue_constant {t : Text} {j : Json}
    (constant : (t, j) ∈ [(['n', 'u', 'l', 'l'], Json.null), (['t', 'r', 'u', 'e'], .bool true),
      (['f', 'a', 'l', 's', 'e'], .bool false)]) :
    readValue (budget + 1) (t ++ rest) = .ok (j, rest) := by
  simp only [List.mem_cons, Prod.mk.injEq, List.not_mem_nil, or_false] at constant
  obtain ⟨rfl, rfl⟩ | ⟨rfl, rfl⟩ | ⟨rfl, rfl⟩ := constant <;>
    rfl

/-- An integer is read as its value. -/
theorem readValue_integer {n : Int} (short : n.natAbs < 10 ^ IntegerText.maxDigits)
    (closes : Closes rest) :
    readValue (budget + 1) (Text.ofInt n ++ rest) = .ok (.integer n, rest) := by
  have other : ∀ (mark : Char) (tail : Text), Text.ofInt n ++ rest = mark :: tail →
      mark = '-' ∨ mark.isDigit = true := by
    intro mark tail same
    cases n with
    | ofNat n =>
        obtain ⟨c, u, written, digit⟩ := ofNat_head n
        rw [Text.ofInt, written] at same
        exact .inr ((List.cons.inj same).1 ▸ digit)
    | negSucc n =>
        exact .inl (List.cons.inj same).1.symm
  rw [readValue_unmarked, readConstant_ofInt]
  · exact readNumber_written short closes
  · intro mark tail same
    refine ⟨?_, ?_, ?_⟩ <;>
      (rintro rfl; exact absurd (other _ tail same) (by decide))

theorem readValue_text (t : Text) :
    readValue (budget + 1) (writeText t ++ rest) = .ok (.text t, rest) := by
  have inside : writeText t ++ rest = '"' :: (t.flatMap escapeChar ++ '"' :: rest) := by
    simp [writeText]
  rw [inside, readValue_quote, readString_written]
  rfl

theorem readValue_array {gap t : Text} {items : List Json} (opens : Opens t)
    (spaces : ∀ c ∈ gap, isSpace c = true) (read : readItems budget t = .ok (items, rest)) :
    readValue (budget + 1) ('[' :: (gap ++ t)) = .ok (.array items, rest) := by
  rw [readValue_bracket, opens.skipSpace_eq spaces]
  obtain ⟨c, u, rfl, token, open', -⟩ := opens
  split
  · rename_i same
    exact absurd (List.cons.inj same).1 open'
  · rw [read]
    rfl

theorem readValue_object {gap t : Text} {fields : List (Text × Json)} (opens : Opens t)
    (spaces : ∀ c ∈ gap, isSpace c = true) (read : readFields budget [] t = .ok (fields, rest)) :
    readValue (budget + 1) ('\x7b' :: (gap ++ t)) = .ok (.object fields, rest) := by
  rw [readValue_brace, opens.skipSpace_eq spaces]
  obtain ⟨c, u, rfl, token, -, open', -⟩ := opens
  split
  · rename_i same
    exact absurd (List.cons.inj same).1 open'
  · rw [read]
    rfl

theorem readItems_last {gap t : Text} {item : Json} (spaces : ∀ c ∈ gap, isSpace c = true)
    (read : readValue budget t = .ok (item, gap ++ ']' :: rest)) :
    readItems (budget + 1) t = .ok ([item], rest) := by
  rw [readItems_succ, read]
  simp only [bind, Except.bind, skipSpace_append spaces (show isSpace ']' = false by decide)]
  rfl

theorem readItems_next {gap t u : Text} {item : Json} {items : List Json} (opens : Opens u)
    (spaces : ∀ c ∈ gap, isSpace c = true)
    (read : readValue budget t = .ok (item, ',' :: (gap ++ u)))
    (others : readItems budget u = .ok (items, rest)) :
    readItems (budget + 1) t = .ok (item :: items, rest) := by
  have comma : skipSpace (',' :: (gap ++ u)) = ',' :: (gap ++ u) :=
    skipSpace_mark (by decide) _
  rw [readItems_succ, read]
  simp only [bind, Except.bind, comma, opens.skipSpace_eq spaces, others]
  rfl

/-- The head of a field is read: its name, the colon, and what comes before the value. -/
theorem readFields_head (name : Text) (earlier : List (Text × Json)) {before t : Text}
    (opens : Opens t)
    (spaces : ∀ c ∈ before, isSpace c = true) {value : Json} {tail : Text}
    (read : readValue budget t = .ok (value, tail)) :
    readFields (budget + 1) earlier (writeText name ++ ':' :: (before ++ t)) =
      match skipSpace tail with
      | '\x7d' :: rest => .ok (setField name value earlier, rest)
      | ',' :: rest => readFields budget (setField name value earlier) (skipSpace rest)
      | rest => .error (.fault .expectedComma rest.length) := by
  have inside : writeText name ++ ':' :: (before ++ t) =
      '"' :: (name.flatMap escapeChar ++ '"' :: ':' :: (before ++ t)) := by
    simp [writeText]
  have colon : skipSpace (':' :: (before ++ t)) = ':' :: (before ++ t) :=
    skipSpace_mark (by decide) _
  rw [inside, readFields_quote, readString_written]
  simp only [bind, Except.bind, colon, opens.skipSpace_eq spaces, read]
  rfl

theorem readFields_last {before after t : Text} {name : Text} {value : Json}
    {earlier : List (Text × Json)} (opens : Opens t)
    (spacesBefore : ∀ c ∈ before, isSpace c = true) (spacesAfter : ∀ c ∈ after, isSpace c = true)
    (new : name ∉ earlier.map Prod.fst)
    (read : readValue budget t = .ok (value, after ++ '\x7d' :: rest)) :
    readFields (budget + 1) earlier (writeText name ++ ':' :: (before ++ t)) =
      .ok (earlier ++ [(name, value)], rest) := by
  rw [readFields_head name earlier opens spacesBefore read,
    skipSpace_append spacesAfter (by decide), setField_of_not_mem new]
  rfl

theorem readFields_next {before after t u : Text} {name : Text} {value : Json}
    {earlier fields : List (Text × Json)} (opens : Opens t) (opensNext : Opens u)
    (spacesBefore : ∀ c ∈ before, isSpace c = true) (spacesAfter : ∀ c ∈ after, isSpace c = true)
    (new : name ∉ earlier.map Prod.fst)
    (read : readValue budget t = .ok (value, ',' :: (after ++ u)))
    (others : readFields budget (earlier ++ [(name, value)]) u = .ok (fields, rest)) :
    readFields (budget + 1) earlier (writeText name ++ ':' :: (before ++ t)) =
      .ok (fields, rest) := by
  rw [readFields_head name earlier opens spacesBefore read, skipSpace_mark (by decide),
    setField_of_not_mem new]
  simp only [opensNext.skipSpace_eq spacesAfter, others]

/-! ### All parts -/

theorem reads_value {t : Text} {j : Json} (opens : Opens t)
    (each : ∀ budget rest, t.length ≤ budget + 1 → Closes rest →
      readValue (budget + 1) (t ++ rest) = .ok (j, rest)) : Reads (.value j) t := by
  constructor
  · exact opens
  · intro budget rest enough closes
    obtain ⟨budget, rfl⟩ := opens.exists_budget enough
    exact each budget rest enough closes

theorem reads_items {t : Text} {items : List Json} (opens : Opens t)
    (each : ∀ budget rest, t.length ≤ budget + 1 →
      readItems (budget + 1) (t ++ rest) = .ok (items, rest)) : Reads (.items items) t := by
  constructor
  · exact opens
  · intro budget rest enough
    obtain ⟨budget, rfl⟩ := opens.exists_budget enough
    exact each budget rest enough

theorem reads_fields {t : Text} {fields : List (Text × Json)} (opens : Opens t)
    (each : ∀ budget earlier rest, t.length ≤ budget + 1 →
      ((earlier ++ fields).map Prod.fst).Nodup →
      readFields (budget + 1) earlier (t ++ rest) = .ok (earlier ++ fields, rest)) :
    Reads (.fields fields) t := by
  constructor
  · exact opens
  · intro budget earlier rest enough distinct
    obtain ⟨budget, rfl⟩ := opens.exists_budget enough
    exact each budget earlier rest enough distinct

theorem name_not_mem {name : Text} {value : Json} {earlier fields : List (Text × Json)}
    (distinct : ((earlier ++ (name, value) :: fields).map Prod.fst).Nodup) :
    name ∉ earlier.map Prod.fst := by
  intro member
  rw [List.map_append, List.map_cons, List.nodup_append] at distinct
  exact distinct.2.2 name member name List.mem_cons_self rfl

theorem reads_constant {t : Text} {j : Json}
    (constant : (t, j) ∈ [(['n', 'u', 'l', 'l'], Json.null), (['t', 'r', 'u', 'e'], .bool true),
      (['f', 'a', 'l', 's', 'e'], .bool false)]) : Reads (.value j) t := by
  have opens : Opens t := by
    simp only [List.mem_cons, Prod.mk.injEq, List.not_mem_nil, or_false] at constant
    obtain ⟨rfl, rfl⟩ | ⟨rfl, rfl⟩ | ⟨rfl, rfl⟩ := constant <;>
      exact ⟨_, _, rfl, by decide⟩
  apply reads_value opens
  intro budget rest enough closes
  exact readValue_constant constant

/-- Every spelling is read as what it spells. -/
theorem Spells.reads {blank : Char → Prop} (spaces : ∀ c, blank c → isSpace c = true) {part : Part}
    {t : Text} (spelled : Spells blank part t) : Reads part t := by
  have gapSpaces : ∀ {gap : Text}, (∀ c ∈ gap, blank c) → ∀ c ∈ gap, isSpace c = true :=
    fun gapBlank c member => spaces c (gapBlank c member)
  induction spelled with
  | null | holds | fails =>
      exact reads_constant (by simp)
  | @integer n short =>
      apply reads_value (opens_ofInt n)
      intro budget rest enough closes
      exact readValue_integer short closes
  | text t =>
      apply reads_value (opens_writeText t)
      intro budget rest enough closes
      exact readValue_text t
  | noItems =>
      apply reads_value (opens_bracket [']'])
      intro budget rest enough closes
      rw [List.cons_append, readValue_bracket, List.cons_append, skipSpace_mark (by decide)]
      rfl
  | @array gap t items gapBlank inside hypothesis =>
      apply reads_value (opens_bracket (gap ++ t))
      intro budget rest enough closes
      simp only [List.length_cons, List.length_append] at enough
      rw [List.cons_append, List.append_assoc]
      exact readValue_array (hypothesis.1.append rest) (gapSpaces gapBlank)
        (hypothesis.2 budget rest (by omega))
  | noFields =>
      apply reads_value (opens_brace ['\x7d'])
      intro budget rest enough closes
      rw [List.cons_append, readValue_brace, List.cons_append, skipSpace_mark (by decide)]
      rfl
  | @object gap t fields gapBlank distinct inside hypothesis =>
      apply reads_value (opens_brace (gap ++ t))
      intro budget rest enough closes
      simp only [List.length_cons, List.length_append] at enough
      rw [List.cons_append, List.append_assoc]
      exact readValue_object (hypothesis.1.append rest) (gapSpaces gapBlank)
        (hypothesis.2 budget [] rest (by omega) distinct)
  | @lastItem gap t item spelled gapBlank hypothesis =>
      apply reads_items (hypothesis.1.append (gap ++ [']']))
      intro budget rest enough
      have nonempty := hypothesis.1.length_pos
      simp only [List.length_cons, List.length_append] at enough
      have closes : Closes (gap ++ ']' :: rest) :=
        closes_append (gapSpaces gapBlank) (closes_cons (by simp))
      have read := hypothesis.2 budget _ (by omega) closes
      apply readItems_last (gapSpaces gapBlank)
      simpa only [List.append_assoc, List.cons_append, List.nil_append] using read
  | @nextItem gap t u item items spelled gapBlank others hypothesis othersHypothesis =>
      apply reads_items (hypothesis.1.append (',' :: (gap ++ u)))
      intro budget rest enough
      have nonempty := hypothesis.1.length_pos
      simp only [List.length_cons, List.length_append] at enough
      have closes : Closes (',' :: (gap ++ (u ++ rest))) := closes_cons (by simp)
      have read := hypothesis.2 budget _ (by omega) closes
      have readOthers := othersHypothesis.2 budget rest (by omega)
      refine readItems_next (othersHypothesis.1.append rest) (gapSpaces gapBlank) ?_ readOthers
      simpa only [List.append_assoc, List.cons_append] using read
  | @lastField before after t name value spelled beforeBlank afterBlank hypothesis =>
      apply reads_fields
        ((opens_writeText name).append (':' :: (before ++ (t ++ (after ++ ['\x7d'])))))
      intro budget earlier rest enough distinct
      simp only [List.length_cons, List.length_append] at enough
      have closes : Closes (after ++ '\x7d' :: rest) :=
        closes_append (gapSpaces afterBlank) (closes_cons (by simp))
      have read := hypothesis.2 budget _ (by omega) closes
      have last := readFields_last (hypothesis.1.append _) (gapSpaces beforeBlank)
        (gapSpaces afterBlank) (name_not_mem distinct) read
      simpa only [List.append_assoc, List.cons_append, List.nil_append] using last
  | @nextField before after t u name value fields spelled beforeBlank afterBlank others hypothesis
      othersHypothesis =>
      apply reads_fields
        ((opens_writeText name).append (':' :: (before ++ (t ++ ',' :: (after ++ u)))))
      intro budget earlier rest enough distinct
      simp only [List.length_cons, List.length_append] at enough
      have closes : Closes (',' :: (after ++ (u ++ rest))) := closes_cons (by simp)
      have read := hypothesis.2 budget _ (by omega) closes
      have readOthers := othersHypothesis.2 budget (earlier ++ [(name, value)]) rest (by omega)
        (by simpa only [List.append_assoc, List.cons_append, List.nil_append] using distinct)
      have next := readFields_next (hypothesis.1.append _) (othersHypothesis.1.append rest)
        (gapSpaces beforeBlank) (gapSpaces afterBlank) (name_not_mem distinct) read readOthers
      simpa only [List.append_assoc, List.cons_append, List.nil_append] using next

theorem isSpace_of_layoutBlank (c : Char) (blank : LayoutBlank c) : isSpace c = true := by
  obtain rfl | rfl := blank <;> decide

/-- A spelling of a value is a text that is read as the value. -/
theorem Spells.read_eq {blank : Char → Prop} (spaces : ∀ c, blank c → isSpace c = true) {j : Json}
    {t : Text} (spelled : Spells blank (.value j) t) : read t = .ok j := by
  obtain ⟨⟨c, u, split, token, -, -, noMark⟩, reads⟩ := spelled.reads spaces
  have value := reads (2 * t.length + 2) [] (by omega) closes_nil
  rw [List.append_nil] at value
  subst split
  rw [read.eq_2]
  · rw [skipSpace_mark token, value]
    rfl
  · intro tail same
    exact noMark (List.cons.inj same).1

/-- Whatever the layout, a faithful value is read back from the text it was written as. -/
theorem read_write {j : Json} (faithful : Faithful j) (layout : Layout) :
    read (write layout j) = .ok j :=
  (faithful.spells layout 0).read_eq isSpace_of_layoutBlank

theorem normalizeBreaks_write {j : Json} (faithful : Faithful j) (layout : Layout) :
    Text.normalizeBreaks (write layout j) = write layout j := by
  have visible : ¬ LayoutBlank '\r' := by simp [LayoutBlank]
  exact normalizeBreaks_of_not_mem ((faithful.spells layout 0).return_not_mem visible)

end MdxLocalization.Json
