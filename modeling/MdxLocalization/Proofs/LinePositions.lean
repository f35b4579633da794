import Mathlib.Data.List.Basic
import MdxLocalization.SourceLines

/-!
# Lines stand in their text

The lines of a text follow one another: the content of a line stops before the next line starts, and
all of it lies in the text. So do the offsets that are taken of a range of lines, whatever lines the
range names.
-/

namespace MdxLocalization

/-! ### Parts of a text -/

namespace Text

theorem countWhile_cons (p : Char → Bool) (c : Char) (t : Text) :
    countWhile p (c :: t) = if p c then countWhile p t + 1 else 0 := rfl

theorem dropEndWhile_eq (p : Char → Bool) (t : Text) :
    dropEndWhile p t = (t.reverse.dropWhile p).reverse := rfl

theorem countWhile_le_length (p : Char → Bool) (t : Text) : countWhile p t ≤ t.length := by
  induction t with
  | nil =>
      exact Nat.le_refl 0
  | cons c rest hypothesis =>
      rw [countWhile_cons]
      split
      · exact Nat.succ_le_succ hypothesis
      · exact Nat.zero_le _

theorem length_takeWhile (p : Char → Bool) (t : Text) :
    (t.takeWhile p).length = countWhile p t := by
  induction t with
  | nil =>
      rfl
  | cons c rest hypothesis =>
      rw [List.takeWhile_cons, countWhile_cons]
      split
      · rw [List.length_cons, hypothesis]
      · rfl

theorem countWhile_append {p : Char → Bool} {lead value : Text} (blank : ∀ c ∈ lead, p c = true)
    (solid : ∀ c ∈ value.head?, p c = false) : countWhile p (lead ++ value) = lead.length := by
  induction lead with
  | nil =>
      cases value with
      | nil =>
          rfl
      | cons c value =>
          rw [List.nil_append, countWhile_cons, solid c rfl]
          rfl
  | cons c lead hypothesis =>
      obtain ⟨here, others⟩ := List.forall_mem_cons.mp blank
      rw [List.cons_append, countWhile_cons, if_pos here, hypothesis others, List.length_cons]

theorem length_slice (t : Text) (start stop : Nat) :
    (slice t start stop).length = min (stop - start) (t.length - start) := by
  rw [slice, List.length_take, List.length_drop]

theorem getElem?_slice (t : Text) {start stop i : Nat} (inside : start + i < stop) :
    (slice t start stop)[i]? = t[start + i]? := by
  rw [slice, List.getElem?_take_of_lt (by omega), List.getElem?_drop]

/-- A text without the characters at its end goes on with these. -/
theorem exists_dropped (p : Char → Bool) (t : Text) :
    ∃ tail, dropEndWhile p t ++ tail = t ∧ ∀ c ∈ tail, p c = true := by
  refine ⟨(t.reverse.takeWhile p).reverse, ?_, ?_⟩
  · rw [dropEndWhile_eq, ← List.reverse_append, List.takeWhile_append_dropWhile,
      List.reverse_reverse]
  · intro c member
    exact List.all_eq_true.mp List.all_takeWhile c (List.mem_reverse.mp member)

theorem length_dropEndWhile_le (p : Char → Bool) (t : Text) :
    (dropEndWhile p t).length ≤ t.length := by
  obtain ⟨tail, parts, -⟩ := exists_dropped p t
  exact Nat.le_trans (Nat.le_add_right _ _)
    (Nat.le_of_eq ((List.length_append).symm.trans (congrArg List.length parts)))

theorem dropEndWhile_append {p : Char → Bool} {value trail : Text}
    (solid : ∀ c ∈ value.getLast?, p c = false) (blank : ∀ c ∈ trail, p c = true) :
    dropEndWhile p (value ++ trail) = value := by
  have behind : ∀ c ∈ trail.reverse, p c = true := fun c member =>
    blank c (List.mem_reverse.mp member)
  rw [dropEndWhile_eq, List.reverse_append, List.dropWhile_append_of_pos behind]
  rw [List.getLast?_eq_head?_reverse] at solid
  cases reversed : value.reverse with
  | nil =>
      rw [List.reverse_eq_nil_iff.mp reversed]
      rfl
  | cons c rest =>
      rw [reversed] at solid
      rw [List.dropWhile_cons_of_neg (by simp [solid c rfl]), ← reversed, List.reverse_reverse]

/-- What is left of a text without the characters at its end does not end with one of them. -/
theorem getLast?_dropEndWhile (p : Char → Bool) (t : Text) :
    ∀ c ∈ (dropEndWhile p t).getLast?, p c = false := by
  intro c isLast
  rw [dropEndWhile_eq, List.getLast?_reverse] at isLast
  have holds := List.head?_dropWhile_not p t.reverse
  rw [Option.mem_def.mp isLast] at holds
  exact holds

theorem slice_append_slice (t : Text) {first middle last : Nat}
    (lower : first ≤ middle) (upper : middle ≤ last) :
    slice t first middle ++ slice t middle last = slice t first last := by
  have lengths : last - first = (middle - first) + (last - middle) := by omega
  have start : middle = first + (middle - first) := by omega
  unfold slice
  rw [lengths, List.take_add, List.drop_drop, ← start]

end Text

/-! ### The bounds of lines -/

attribute [local simp] lineBounds

/-- A line starts where the current one began or later, and stops in the text. -/
theorem lineBounds_within {start position : Nat} (t : Text) (begun : start ≤ position) :
    ∀ b ∈ lineBounds start position t,
      start ≤ b.1 ∧ b.1 ≤ b.2 ∧ b.2 ≤ position + t.length := by
  induction start, position, t using lineBounds.induct with
  | case1 start position =>
      intro b member
      have only : b = (start, position) := by simpa using member
      subst only
      exact ⟨Nat.le_refl _, begun, Nat.le_add_right _ _⟩
  | case2 start position rest hypothesis =>
      intro b member
      have either : b = (start, position) ∨ b ∈ lineBounds (position + 2) (position + 2) rest := by
        simpa using member
      simp only [List.length_cons]
      rcases either with first | later
      · subst first
        exact ⟨Nat.le_refl _, begun, Nat.le_add_right _ _⟩
      · have bounds := hypothesis (Nat.le_refl _) b later
        omega
  | case3 start position c rest single isBreak hypothesis =>
      intro b member
      rw [lineBounds.eq_3 _ _ _ _ single, if_pos isBreak, List.mem_cons] at member
      simp only [List.length_cons]
      rcases member with first | later
      · subst first
        exact ⟨Nat.le_refl _, begun, Nat.le_add_right _ _⟩
      · have bounds := hypothesis (Nat.le_refl _) b later
        omega
  | case4 start position c rest single noBreak hypothesis =>
      intro b member
      rw [lineBounds.eq_3 _ _ _ _ single, if_neg noBreak] at member
      have bounds := hypothesis (Nat.le_succ_of_le begun) b member
      simp only [List.length_cons]
      omega

/-- A line stops before the next one starts. -/
theorem lineBounds_inOrder (start position : Nat) (t : Text) :
    (lineBounds start position t).Pairwise fun a b => a.2 ≤ b.1 := by
  induction start, position, t using lineBounds.induct with
  | case1 start position =>
      exact List.pairwise_singleton _ _
  | case2 start position rest hypothesis =>
      rw [lineBounds, List.pairwise_cons]
      refine ⟨?_, hypothesis⟩
      intro b later
      have bounds := lineBounds_within rest (Nat.le_refl (position + 2)) b later
      simp only
      omega
  | case3 start position c rest single isBreak hypothesis =>
      rw [lineBounds.eq_3 _ _ _ _ single, if_pos isBreak, List.pairwise_cons]
      refine ⟨?_, hypothesis⟩
      intro b later
      have bounds := lineBounds_within rest (Nat.le_refl (position + 1)) b later
      simp only
      omega
  | case4 start position c rest single noBreak hypothesis =>
      rw [lineBounds.eq_3 _ _ _ _ single, if_neg noBreak]
      exact hypothesis

namespace SourceLines

/-- The bounds of the lines are in order and lie in the text. -/
structure Ordered (lines : SourceLines) : Prop where
  inOrder : lines.bounds.Pairwise fun a b => a.2 ≤ b.1
  within : ∀ b ∈ lines.bounds, b.1 ≤ b.2 ∧ b.2 ≤ lines.text.length

theorem ofText_ordered (t : Text) (base : Nat) : (ofText t base).Ordered where
  inOrder := lineBounds_inOrder 0 0 t
  within := by
    intro b member
    have bounds := lineBounds_within t (Nat.le_refl 0) b member
    exact ⟨bounds.2.1, Nat.zero_add t.length ▸ bounds.2.2⟩

variable {lines : SourceLines}

theorem start_of_bounds {i : Nat} {b : Nat × Nat} (found : lines.bounds[i]? = some b) :
    lines.start i = lines.base + b.1 ∧ lines.stop i = lines.base + b.2 := by
  simp [start, stop, found]

theorem start_of_absent {i : Nat} (absent : lines.bounds[i]? = none) :
    lines.start i = lines.base + lines.text.length ∧
      lines.stop i = lines.base + lines.text.length ∧ lines.line i = [] := by
  simp [start, stop, line, absent]

theorem base_le_start (lines : SourceLines) (i : Nat) : lines.base ≤ lines.start i :=
  Nat.le_add_right _ _

theorem Ordered.stop_le (ordered : lines.Ordered) (i : Nat) :
    lines.start i ≤ lines.stop i ∧ lines.stop i ≤ lines.base + lines.text.length := by
  cases found : lines.bounds[i]? with
  | none =>
      obtain ⟨atEnd, stopsAtEnd, -⟩ := start_of_absent found
      omega
  | some b =>
      obtain ⟨starts, stops⟩ := start_of_bounds found
      have bounds := ordered.within b (List.mem_of_getElem? found)
      omega

theorem Ordered.start_add_length_le_stop (ordered : lines.Ordered) (i : Nat) :
    lines.start i + (lines.line i).length ≤ lines.stop i := by
  cases found : lines.bounds[i]? with
  | none =>
      obtain ⟨atEnd, stopsAtEnd, empty⟩ := start_of_absent found
      simp [atEnd, stopsAtEnd, empty]
  | some b =>
      obtain ⟨starts, stops⟩ := start_of_bounds found
      have bounds := ordered.within b (List.mem_of_getElem? found)
      have content : lines.line i = Text.slice lines.text b.1 b.2 := by
        simp only [line, found]
      rw [content, Text.length_slice]
      omega

theorem Ordered.start_add_length_le (ordered : lines.Ordered) (i : Nat) :
    lines.start i + (lines.line i).length ≤ lines.base + lines.text.length :=
  Nat.le_trans (ordered.start_add_length_le_stop i) (ordered.stop_le i).2

theorem Ordered.stop_le_start (ordered : lines.Ordered) {i j : Nat} (before : i < j) :
    lines.stop i ≤ lines.start j := by
  cases later : lines.bounds[j]? with
  | none =>
      rw [(start_of_absent later).1]
      exact (ordered.stop_le i).2
  | some b =>
      obtain ⟨inside, isLater⟩ := List.getElem?_eq_some_iff.mp later
      have present := Nat.lt_trans before inside
      have earlier : lines.bounds[i]? = some lines.bounds[i] := List.getElem?_eq_getElem present
      have apart := List.pairwise_iff_getElem.mp ordered.inOrder i j present inside before
      rw [(start_of_bounds later).1, (start_of_bounds earlier).2, ← isLater]
      exact Nat.add_le_add_left apart _

theorem Ordered.start_mono (ordered : lines.Ordered) {i j : Nat} (le : i ≤ j) :
    lines.start i ≤ lines.start j := by
  rcases Nat.eq_or_lt_of_le le with same | before
  · subst same
    exact Nat.le_refl _
  · exact Nat.le_trans (ordered.stop_le i).1 (ordered.stop_le_start before)

/-! ### Ranges of lines -/

theorem trimRange_succ (lines : SourceLines) (first last : Nat) :
    lines.trimRange first (last + 1) =
      if first < last && lines.isBlank last then lines.trimRange first last else last + 1 := rfl

theorem trimRange_le (lines : SourceLines) (first last : Nat) :
    lines.trimRange first last ≤ last := by
  induction last with
  | zero =>
      exact Nat.le_refl 0
  | succ last hypothesis =>
      rw [trimRange_succ]
      split
      · exact Nat.le_succ_of_le hypothesis
      · exact Nat.le_refl _

theorem lt_trimRange {first last : Nat} (filled : first < last) :
    first < lines.trimRange first last := by
  induction last with
  | zero =>
      exact filled
  | succ last hypothesis =>
      rw [trimRange_succ]
      split
      · rename_i trimmed
        rw [Bool.and_eq_true, decide_eq_true_eq] at trimmed
        exact hypothesis trimmed.1
      · exact filled

theorem Ordered.extent_within (ordered : lines.Ordered) (first last : Nat) :
    lines.start first ≤ (lines.extent first last).1 ∧
      (lines.extent first last).1 ≤ (lines.extent first last).2 ∧
      (lines.extent first last).2 ≤ lines.base + lines.text.length := by
  have indent := Text.countWhile_le_length Text.isIndent (lines.line first)
  have firstInside := ordered.start_add_length_le first
  have trimmed := Text.length_dropEndWhile_le Text.isIndent
    (lines.line (lines.trimRange first last - 1))
  have lastInside := ordered.start_add_length_le (lines.trimRange first last - 1)
  simp only [extent]
  omega

theorem Ordered.extent_le_start (ordered : lines.Ordered) {first last : Nat}
    (filled : first < last) : (lines.extent first last).2 ≤ lines.start last := by
  have indent := Text.countWhile_le_length Text.isIndent (lines.line first)
  have firstInside := ordered.start_add_length_le_stop first
  have firstBefore := ordered.stop_le_start filled
  have kept : first < lines.trimRange first last := lt_trimRange filled
  have shorter := trimRange_le lines first last
  have trimmed := Text.length_dropEndWhile_le Text.isIndent
    (lines.line (lines.trimRange first last - 1))
  have lastInside := ordered.start_add_length_le_stop (lines.trimRange first last - 1)
  have lastBefore := ordered.stop_le_start
    (show lines.trimRange first last - 1 < last by omega)
  simp only [extent]
  omega

end SourceLines

end MdxLocalization
