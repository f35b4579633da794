import MdxLocalization.Esm
import MdxLocalization.Jsx.Tag
import MdxLocalization.Proofs.InlineRange

/-!
# Tags and module statements in range

The scanners of tags answer with what is left of their region, from which they work out offsets. A
tag stands in its region, but for one case: the mark `/>` of a self-closing tag may reach one
character past it, which is then a character of the source.
-/

namespace MdxLocalization

namespace Jsx

variable {n stop : Nat}

/-! ### Attributes -/

/-- What is left after a group of braces is a part of the text. -/
theorem afterBraces_length_le {depth : Nat} {quote : Option Char} {t rest : Text}
    (found : afterBraces depth quote t = .found rest) : rest.length ≤ t.length := by
  induction t generalizing depth quote with
  | nil =>
      rw [afterBraces] at found
      split at found <;> cases found
  | cons c t hypothesis =>
      rw [afterBraces.eq_def] at found
      dsimp only at found
      rw [List.length_cons]
      repeat' split at found
      all_goals first
        | exact Nat.le_succ_of_le (hypothesis found)
        | skip
      cases found
      exact Nat.le_succ _

theorem attribute_inRange {name value t rest : Text} {valueSpan : Option Span}
    (bound : stop ≤ n) (shorter : rest.length ≤ t.length)
    (valueInside : ∀ s, valueSpan = some s → s.Inside n) :
    JsxAttribute.InRange n
      ⟨name, value, some (Span.ofNats (stop - t.length) (stop - rest.length)), valueSpan⟩ where
  span := by
    intro s placed
    cases placed
    exact Span.ofNats_inside (by omega) (by omega)
  valueSpan := valueInside

/-- An attribute stands in its region, and what is left after it is a part of the region. -/
theorem readAttribute_within {t rest : Text} {a : JsxAttribute} (inside : t.length ≤ stop)
    (bound : stop ≤ n) (found : readAttribute stop t = .found (a, rest)) :
    rest.length ≤ t.length ∧ a.InRange n := by
  unfold readAttribute at found
  split at found
  · cases found
  · rename_i c first
    have named := (List.dropWhile_sublist isAttributeRest (l := first)).length_le
    rw [List.length_cons] at inside
    dsimp only at found
    split at found
    · split at found
      · cases found
      · cases found
      · rename_i quote body afterName
        rw [afterName] at named
        simp only [List.length_cons] at named
        split at found
        · split at found
          · cases found
          · rename_i length closing
            have closed := Text.findChar?_lt_length closing
            cases found
            have shorter : (body.drop (length + 1)).length ≤ (c :: first).length := by
              rw [List.length_drop, List.length_cons]
              omega
            refine ⟨shorter, attribute_inRange bound shorter ?_⟩
            intro s placed
            cases placed
            exact Span.ofNats_inside (by omega) (by omega)
        · split at found
          · split at found
            · rename_i left braces
              have bounded := afterBraces_length_le braces
              rw [List.length_cons] at bounded
              cases found
              have shorter : rest.length ≤ (c :: first).length := by
                rw [List.length_cons]
                omega
              exact ⟨shorter, attribute_inRange bound shorter (by simp)⟩
            · cases found
            · cases found
          · cases found
      · cases found
        have shorter : (first.dropWhile isAttributeRest).length ≤ (c :: first).length :=
          Nat.le_succ_of_le named
        exact ⟨shorter, attribute_inRange bound shorter (by simp)⟩
    · cases found

/-! ### Tags -/

/-- A tag stands where its region starts and, unless it closes itself with the character after the
region, stops in the region. -/
structure TagWithin (following : Option Char) (start stop n : Nat) (tag : JsxTag) : Prop where
  span : ∃ tagStop, tag.span = Span.ofNats start tagStop ∧ start < tagStop ∧
    (tagStop ≤ stop ∨ tag.selfClosing = true ∧ following = some '>' ∧ tagStop = stop + 1)
  attributes : ∀ a ∈ tag.attributes, a.InRange n

theorem tagBody_within {following : Option Char} {start budget : Nat} {name t : Text}
    {attributes : List JsxAttribute} {tag : JsxTag} (inside : start + t.length ≤ stop)
    (bound : stop ≤ n) (before : ∀ a ∈ attributes, a.InRange n)
    (found : tagBody following start stop name budget attributes t = .found tag) :
    TagWithin following start stop n tag := by
  induction budget generalizing attributes t with
  | zero =>
      cases found
  | succ budget hypothesis =>
      have skipped := (List.dropWhile_sublist Text.isBlank (l := t)).length_le
      have reversed : ∀ a ∈ attributes.reverse, a.InRange n :=
        fun a member => before a (List.mem_reverse.mp member)
      rw [tagBody] at found
      split at found
      · cases found
      · rename_i tail body
        rw [body] at skipped found
        simp only [List.length_cons] at skipped found
        cases found
        exact ⟨⟨_, rfl, by omega, Or.inl (by omega)⟩, reversed⟩
      · rename_i body
        rw [body] at skipped found
        simp only [List.length_cons, List.length_nil] at skipped found
        split at found
        · rename_i follows
          cases found
          exact ⟨⟨_, rfl, by omega, Or.inr ⟨rfl, follows, by omega⟩⟩, reversed⟩
        · cases found
      · rename_i tail body
        rw [body] at skipped found
        simp only [List.length_cons] at skipped found
        cases found
        exact ⟨⟨_, rfl, by omega, Or.inl (by omega)⟩, reversed⟩
      · split at found
        · rename_i rest braces
          have bounded := afterBraces_length_le braces
          exact hypothesis (by omega) before found
        · cases found
        · cases found
      · split at found
        · rename_i a rest isAttribute
          have read := readAttribute_within (by omega) bound isAttribute
          exact hypothesis (by omega) (List.forall_mem_cons.mpr ⟨read.2, before⟩) found
        · cases found
        · cases found

theorem readTag?_tagWithin {source : Text} {start : Nat} {tag : JsxTag} (inOrder : start ≤ stop)
    (within : stop ≤ source.length) (found : readTag? source start stop = some tag) :
    TagWithin source[stop]? start stop source.length tag := by
  have size : (Text.slice source start stop).length = stop - start := by
    rw [Text.length_slice]
    omega
  unfold readTag? readRegion at found
  dsimp only at found
  split at found
  · rename_i result region
    cases found
    split at region
    · cases region
    · rename_i name named
      have end_eq : start + (Text.slice source start stop).length = stop := by omega
      rw [end_eq] at region
      have inside : start +
          ((Text.slice source start stop).drop (name.length + 1)).length ≤ stop := by
        rw [List.length_drop]
        omega
      exact tagBody_within inside within (by simp) region
  · cases found
  · cases found

/-- A tag that is found in a region of a source stands in the source. It stops in the region unless
it closes itself with the character behind. -/
theorem readTag?_within {source : Text} {start : Nat} {tag : JsxTag} (inOrder : start ≤ stop)
    (within : stop ≤ source.length) (found : readTag? source start stop = some tag) :
    ∃ tagStop, tag.span = Span.ofNats start tagStop ∧ start < tagStop ∧
      tagStop ≤ source.length ∧
      (tag.selfClosing = false ∨ source[stop]? ≠ some '>' → tagStop ≤ stop) ∧
      ∀ a ∈ tag.attributes, a.InRange source.length := by
  obtain ⟨⟨tagStop, placed, after, ends⟩, attributes⟩ :=
    readTag?_tagWithin inOrder within found
  refine ⟨tagStop, placed, after, ?_, ?_, attributes⟩
  · rcases ends with before | ⟨-, follows, past⟩
    · exact Nat.le_trans before within
    · obtain ⟨present, -⟩ := List.getElem?_eq_some_iff.mp follows
      omega
  · intro bounded
    rcases ends with before | ⟨closes, follows, -⟩
    · exact before
    · rcases bounded with opens | other
      · rw [opens] at closes
        cases closes
      · exact absurd follows other

/-! ### Closing tags -/

theorem closingTagLength?_le {name t : Text} {length : Nat}
    (found : closingTagLength? name t = some length) : length ≤ t.length := by
  unfold closingTagLength? at found
  split at found
  · obtain ⟨skipped, -, matched⟩ := List.exists_of_findSome?_eq_some found
    dsimp only at matched
    split at matched
    · split at matched
      · cases matched
        exact Nat.sub_le _ _
      · cases matched
    · cases matched
  · cases found

theorem head_of_closingTagLength? {name t : Text} {length : Nat}
    (found : closingTagLength? name t = some length) : t[0]? = some '<' := by
  unfold closingTagLength? at found
  split at found
  · rfl
  · cases found

/-- A closing tag stands in the text in which it is found, and starts with a bracket of it. -/
theorem findClosingTag?_within {name t : Text} {offset : Nat} {tag : Nat × Nat}
    (found : findClosingTag? name offset t = some tag) :
    offset ≤ tag.1 ∧ tag.1 ≤ tag.2 ∧ tag.2 ≤ offset + t.length ∧
      t[tag.1 - offset]? = some '<' := by
  induction t generalizing offset with
  | nil =>
      cases found
  | cons c rest hypothesis =>
      rw [findClosingTag?] at found
      split at found
      · rename_i length closing
        have bound := closingTagLength?_le closing
        have bracket := head_of_closingTagLength? closing
        cases found
        dsimp only
        rw [Nat.sub_self]
        exact ⟨Nat.le_refl _, Nat.le_add_right _ _, Nat.add_le_add_left bound _, bracket⟩
      · obtain ⟨after, proper, inside, bracket⟩ := hypothesis found
        rw [List.length_cons]
        refine ⟨by omega, proper, by omega, ?_⟩
        rw [show tag.1 - offset = tag.1 - (offset + 1) + 1 by omega, List.getElem?_cons_succ]
        exact bracket

end Jsx

namespace Esm

/-! ### Module statements -/

/-- An import statement ends with its literal, and it stands in the text that it starts. -/
theorem importStatement?_within {t literal : Text} {start length : Nat}
    (found : importStatement? t = some (start, literal, length)) :
    start + literal.length = length ∧ 0 < length ∧ length ≤ t.length := by
  unfold importStatement? at found
  split at found
  · dsimp only at found
    split at found
    · cases found
    · rename_i quote rest afterClause
      have clause := congrArg List.length afterClause
      simp only [List.length_drop, List.length_cons] at clause
      split at found
      · split at found
        · cases found
        · rename_i closing tail afterName
          have name := congrArg List.length afterName
          simp only [List.length_drop, List.length_cons] at name
          split at found
          · cases found
            simp only [List.length_append, List.length_cons, List.length_nil]
            omega
          · cases found
      · cases found
  · cases found

/-- Literals stand in the text, behind the characters that are skipped, and one behind the other. -/
theorem importsFrom_inOrder (offset skip : Nat) (inWord : Bool) (t : Text) :
    (importsFrom offset skip inWord t).Pairwise (fun a b => a.2.stop ≤ b.2.start) ∧
      ∀ found ∈ importsFrom offset skip inWord t, ∃ first last,
        found.2 = Span.ofNats first last ∧ offset + skip ≤ first ∧ first ≤ last ∧
          last ≤ offset + t.length := by
  induction t generalizing offset skip inWord with
  | nil =>
      simp [importsFrom]
  | cons c rest hypothesis =>
      rw [importsFrom, List.length_cons]
      split
      · obtain ⟨inOrder, within⟩ := hypothesis (offset + 1) (skip - 1) false
        refine ⟨inOrder, fun found member => ?_⟩
        obtain ⟨first, last, same, after, proper, before⟩ := within found member
        exact ⟨first, last, same, by omega, proper, by omega⟩
      · split
        · rename_i start literal length statement
          have read : importStatement? (c :: rest) = some (start, literal, length) := by
            split at statement
            · cases statement
            · exact statement
          obtain ⟨ends, positive, inside⟩ := importStatement?_within read
          rw [List.length_cons] at inside
          obtain ⟨inOrder, within⟩ := hypothesis (offset + 1) (length - 1) false
          constructor
          · refine List.pairwise_cons.mpr ⟨fun found member => ?_, inOrder⟩
            obtain ⟨first, last, same, after, -⟩ := within found member
            rw [same]
            exact Int.ofNat_le.mpr (by omega)
          · refine List.forall_mem_cons.mpr ⟨⟨_, _, rfl, by omega, by omega, by omega⟩, ?_⟩
            intro found member
            obtain ⟨first, last, same, after, proper, before⟩ := within found member
            exact ⟨first, last, same, by omega, proper, by omega⟩
        · obtain ⟨inOrder, within⟩ := hypothesis (offset + 1) 0 (Text.isWord c)
          refine ⟨inOrder, fun found member => ?_⟩
          obtain ⟨first, last, same, after, proper, before⟩ := within found member
          exact ⟨first, last, same, by omega, proper, by omega⟩

theorem imports_inside (source : Text) (start stop : Nat) :
    ∀ found ∈ imports source start stop, found.2.Inside source.length := by
  intro found member
  obtain ⟨first, last, same, after, proper, before⟩ :=
    (importsFrom_inOrder start 0 false (Text.slice source start stop)).2 found member
  rw [same]
  rw [Text.length_slice] at before
  by_cases inside : start ≤ source.length
  · exact Span.ofNats_inside proper (by omega)
  · have empty : Text.slice source start stop = [] := by
      rw [← List.length_eq_zero_iff, Text.length_slice]
      omega
    rw [imports, empty] at member
    simp [importsFrom] at member

end Esm

end MdxLocalization
