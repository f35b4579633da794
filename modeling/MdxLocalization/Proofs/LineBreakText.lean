import Mathlib.Data.List.Induction
import MdxLocalization.Proofs.LinePositions
import MdxLocalization.Span

/-!
# The two kinds of line breaks

A text whose lines end with line feeds can be written with a carriage return before each of them.
Offsets then move by the number of line feeds before them. What reads a text character by character
and takes the two characters of a break alike finds the same in both, with its offsets moved.
-/

namespace MdxLocalization

namespace Text

/-- The text with a carriage return before each line feed. -/
def addReturns (t : Text) : Text := t.flatMap fun c => if c = '\n' then ['\r', '\n'] else [c]

/-- Where an offset of a text comes to lie when carriage returns are added to the text. -/
def moved (t : Text) (offset : Nat) : Nat := offset + (t.take offset).count '\n'

variable {t u : Text} {c : Char} {p : Char → Bool}

/-! ### Texts with carriage returns -/

@[simp] theorem addReturns_nil : addReturns [] = [] := rfl

@[simp] theorem addReturns_break (t : Text) :
    addReturns ('\n' :: t) = '\r' :: '\n' :: addReturns t := rfl

theorem addReturns_cons (other : c ≠ '\n') (t : Text) :
    addReturns (c :: t) = c :: addReturns t := by
  rw [addReturns, List.flatMap_cons, if_neg other]
  rfl

/-- The first character stays, or is a carriage return where it was a line feed. -/
theorem exists_addReturns_cons {p : Char → Prop} (t : Text) (atBreak : c = '\n' → p '\r')
    (within : c ≠ '\n' → p c) : ∃ next others, addReturns (c :: t) = next :: others ∧ p next := by
  by_cases isBreak : c = '\n'
  · exact ⟨'\r', '\n' :: addReturns t, by rw [isBreak, addReturns_break], atBreak isBreak⟩
  · exact ⟨c, addReturns t, addReturns_cons isBreak t, within isBreak⟩

theorem addReturns_append (t u : Text) : addReturns (t ++ u) = addReturns t ++ addReturns u :=
  List.flatMap_append

theorem length_addReturns (t : Text) : (addReturns t).length = t.length + t.count '\n' := by
  induction t with
  | nil =>
      rfl
  | cons c t hypothesis =>
      by_cases isBreak : c = '\n'
      · subst isBreak
        simp only [addReturns_break, List.length_cons, hypothesis, List.count_cons_self]
        omega
      · rw [addReturns_cons isBreak, List.length_cons, hypothesis, List.length_cons,
          List.count_cons_of_ne isBreak]
        omega

theorem addReturns_eq_self (noBreak : '\n' ∉ t) : addReturns t = t := by
  induction t with
  | nil =>
      rfl
  | cons c t hypothesis =>
      have other : c ≠ '\n' := (List.ne_of_not_mem_cons noBreak).symm
      rw [addReturns_cons other, hypothesis (List.not_mem_of_not_mem_cons noBreak)]

theorem addReturns_eq_nil_iff : addReturns t = [] ↔ t = [] := by
  rw [← List.length_eq_zero_iff, ← List.length_eq_zero_iff, length_addReturns]
  have fewer := List.count_le_length (a := '\n') (l := t)
  omega

theorem normalizeBreaks_pair (t : Text) :
    normalizeBreaks ('\r' :: '\n' :: t) = '\n' :: normalizeBreaks t := rfl

theorem normalizeBreaks_cons (other : c ≠ '\r') (t : Text) :
    normalizeBreaks (c :: t) = c :: normalizeBreaks t :=
  normalizeBreaks.eq_4 c t (fun _ same => absurd same other) (fun same => absurd same other)

theorem normalizeBreaks_eq_self (clean : '\r' ∉ t) : normalizeBreaks t = t := by
  induction t with
  | nil =>
      rfl
  | cons c t hypothesis =>
      rw [normalizeBreaks_cons (List.ne_of_not_mem_cons clean).symm,
        hypothesis (List.not_mem_of_not_mem_cons clean)]

theorem normalizeBreaks_addReturns (clean : '\r' ∉ t) : normalizeBreaks (addReturns t) = t := by
  induction t with
  | nil =>
      rfl
  | cons c t hypothesis =>
      have rest := hypothesis (List.not_mem_of_not_mem_cons clean)
      by_cases isBreak : c = '\n'
      · subst isBreak
        rw [addReturns_break, normalizeBreaks_pair, rest]
      · rw [addReturns_cons isBreak, normalizeBreaks_cons (List.ne_of_not_mem_cons clean).symm,
          rest]

/-! ### Moved offsets -/

theorem moved_zero (t : Text) : moved t 0 = 0 := rfl

theorem moved_add (t : Text) (a b : Nat) : moved t (a + b) = moved t a + moved (t.drop a) b := by
  simp only [moved, List.take_add, List.count_append]
  omega

theorem moved_lt {a b : Nat} (before : a < b) : moved t a < moved t b := by
  obtain ⟨k, rfl⟩ := Nat.exists_eq_add_of_lt before
  rw [Nat.add_assoc, moved_add]
  have forward : k + 1 ≤ moved (t.drop a) (k + 1) := Nat.le_add_right _ _
  omega

theorem moved_le_iff {a b : Nat} : moved t a ≤ moved t b ↔ a ≤ b := by
  constructor
  · intro le
    by_contra after
    exact Nat.not_lt.mpr le (moved_lt (Nat.not_le.mp after))
  · intro le
    rcases Nat.eq_or_lt_of_le le with rfl | before
    · exact Nat.le_refl _
    · exact Nat.le_of_lt (moved_lt before)

theorem moved_lt_iff {a b : Nat} : moved t a < moved t b ↔ a < b := by
  rw [← Nat.not_le, ← Nat.not_le, moved_le_iff]

theorem moved_max (t : Text) (a b : Nat) : moved t (max a b) = max (moved t a) (moved t b) := by
  rcases Nat.le_total a b with le | le
  · rw [Nat.max_eq_right le, Nat.max_eq_right (moved_le_iff.mpr le)]
  · rw [Nat.max_eq_left le, Nat.max_eq_left (moved_le_iff.mpr le)]

theorem moved_break_succ (t : Text) (a : Nat) : moved ('\n' :: t) (a + 1) = moved t a + 2 := by
  simp only [moved, List.take_succ_cons, List.count_cons_self]
  omega

theorem moved_cons_succ (other : c ≠ '\n') (t : Text) (a : Nat) :
    moved (c :: t) (a + 1) = moved t a + 1 := by
  simp only [moved, List.take_succ_cons, List.count_cons_of_ne other]
  omega

/-- An offset moves as those before it do when no break stands between. -/
theorem moved_add_of_not_mem {a b : Nat} (noBreak : '\n' ∉ (t.drop a).take b) :
    moved t (a + b) = moved t a + b := by
  rw [moved_add, moved.eq_def (t.drop a), List.count_eq_zero_of_not_mem noBreak, Nat.add_zero]

theorem moved_of_not_mem {a : Nat} (noBreak : '\n' ∉ t.take a) : moved t a = a := by
  rw [moved, List.count_eq_zero_of_not_mem noBreak, Nat.add_zero]

theorem moved_of_length_le {a : Nat} (past : t.length ≤ a) : moved t a = a + t.count '\n' := by
  rw [moved, List.take_of_length_le past]

theorem moved_length (t : Text) : moved t t.length = (addReturns t).length := by
  rw [moved_of_length_le (Nat.le_refl _), length_addReturns]

theorem moved_eq_length {a : Nat} (inside : a ≤ t.length) :
    moved t a = (addReturns (t.take a)).length := by
  rw [length_addReturns, List.length_take_of_le inside, moved]

/-! ### Cutting at moved offsets -/

theorem addReturns_split (t : Text) (a : Nat) :
    addReturns (t.take a) ++ addReturns (t.drop a) = addReturns t := by
  rw [← addReturns_append, List.take_append_drop]

theorem take_addReturns (t : Text) (a : Nat) :
    (addReturns t).take (moved t a) = addReturns (t.take a) := by
  rcases Nat.le_total a t.length with inside | past
  · rw [moved_eq_length inside, ← addReturns_split t a, List.take_left]
  · rw [List.take_of_length_le past, List.take_of_length_le]
    rw [← moved_length]
    exact moved_le_iff.mpr past

theorem drop_addReturns (t : Text) (a : Nat) :
    (addReturns t).drop (moved t a) = addReturns (t.drop a) := by
  rcases Nat.le_total a t.length with inside | past
  · rw [moved_eq_length inside, ← addReturns_split t a, List.drop_left]
  · rw [List.drop_of_length_le past, addReturns_nil, List.drop_of_length_le]
    rw [← moved_length]
    exact moved_le_iff.mpr past

theorem slice_addReturns (t : Text) (a b : Nat) :
    slice (addReturns t) (moved t a) (moved t b) = addReturns (slice t a b) := by
  rw [slice, slice, drop_addReturns, ← take_addReturns]
  rcases Nat.le_total a b with inOrder | outOfOrder
  · obtain ⟨k, rfl⟩ := Nat.exists_eq_add_of_le inOrder
    rw [moved_add, Nat.add_sub_cancel_left, Nat.add_sub_cancel_left]
  · rw [Nat.sub_eq_zero_of_le outOfOrder, Nat.sub_eq_zero_of_le (moved_le_iff.mpr outOfOrder),
      moved_zero]

/-- A character that belongs to no break stands at the moved offset. -/
theorem getElem?_addReturns (noFeed : c ≠ '\n') (noReturn : c ≠ '\r') (a : Nat) :
    (addReturns t)[moved t a]? = some c ↔ t[a]? = some c := by
  rw [← Nat.add_zero (moved t a), ← List.getElem?_drop, drop_addReturns, ← Nat.add_zero a,
    ← List.getElem?_drop, Nat.add_zero]
  cases t.drop a with
  | nil =>
      rfl
  | cons d rest =>
      by_cases isBreak : d = '\n'
      · subst isBreak
        simp [Ne.symm noFeed, Ne.symm noReturn]
      · rw [addReturns_cons isBreak]
        rfl

/-! ### Reading character by character -/

theorem all_addReturns (alike : p '\r' = p '\n') (t : Text) : (addReturns t).all p = t.all p := by
  induction t with
  | nil =>
      rfl
  | cons c t hypothesis =>
      by_cases isBreak : c = '\n'
      · subst isBreak
        rw [addReturns_break, List.all_cons, List.all_cons, List.all_cons, hypothesis, alike,
          ← Bool.and_assoc, Bool.and_self]
      · rw [addReturns_cons isBreak, List.all_cons, List.all_cons, hypothesis]

theorem isBlankText_addReturns (t : Text) : isBlankText (addReturns t) = isBlankText t :=
  all_addReturns (by decide) t

theorem dropWhile_addReturns (alike : p '\r' = p '\n') (t : Text) :
    (addReturns t).dropWhile p = addReturns (t.dropWhile p) := by
  induction t with
  | nil =>
      rfl
  | cons c t hypothesis =>
      by_cases isBreak : c = '\n'
      · subst isBreak
        cases taken : p '\n' with
        | true =>
            rw [addReturns_break, List.dropWhile_cons_of_pos (alike.trans taken),
              List.dropWhile_cons_of_pos taken, List.dropWhile_cons_of_pos taken, hypothesis]
        | false =>
            rw [addReturns_break, List.dropWhile_cons_of_neg (by simp [alike, taken]),
              List.dropWhile_cons_of_neg (by simp [taken]), addReturns_break]
      · rw [addReturns_cons isBreak]
        cases taken : p c with
        | true =>
            rw [List.dropWhile_cons_of_pos taken, List.dropWhile_cons_of_pos taken, hypothesis]
        | false =>
            rw [List.dropWhile_cons_of_neg (by simp [taken]),
              List.dropWhile_cons_of_neg (by simp [taken]), addReturns_cons isBreak]

theorem takeWhile_addReturns (alike : p '\r' = p '\n') (t : Text) :
    (addReturns t).takeWhile p = addReturns (t.takeWhile p) := by
  have parts : (addReturns t).takeWhile p ++ addReturns (t.dropWhile p) =
      addReturns (t.takeWhile p) ++ addReturns (t.dropWhile p) := by
    rw [← dropWhile_addReturns alike, List.takeWhile_append_dropWhile, dropWhile_addReturns alike,
      ← addReturns_append, List.takeWhile_append_dropWhile]
  exact List.append_cancel_right parts

/-- What stops before a break reads the same characters. -/
theorem takeWhile_addReturns_of_stops (feedStops : p '\n' = false) (returnStops : p '\r' = false)
    (t : Text) : (addReturns t).takeWhile p = t.takeWhile p := by
  rw [takeWhile_addReturns (returnStops.trans feedStops.symm)]
  refine addReturns_eq_self fun member => ?_
  have taken := List.all_eq_true.mp List.all_takeWhile '\n' member
  rw [feedStops] at taken
  cases taken

theorem dropEndWhile_concat (t : Text) (c : Char) :
    dropEndWhile p (t ++ [c]) = if p c then dropEndWhile p t else t ++ [c] := by
  rw [dropEndWhile_eq, List.reverse_concat, List.dropWhile_cons]
  split
  · rfl
  · rw [List.reverse_cons, List.reverse_reverse]

theorem dropEndWhile_addReturns (alike : p '\r' = p '\n') (t : Text) :
    dropEndWhile p (addReturns t) = addReturns (dropEndWhile p t) := by
  induction t using List.reverseRecOn with
  | nil =>
      rfl
  | append_singleton t c hypothesis =>
      rw [addReturns_append, dropEndWhile_concat]
      by_cases isBreak : c = '\n'
      · subst isBreak
        rw [show addReturns ['\n'] = ['\r'] ++ ['\n'] from rfl, ← List.append_assoc,
          dropEndWhile_concat, dropEndWhile_concat, alike]
        split
        · exact hypothesis
        · rw [addReturns_append, List.append_assoc]
          rfl
      · rw [addReturns_cons isBreak, addReturns_nil, dropEndWhile_concat]
        split
        · exact hypothesis
        · rw [addReturns_append, addReturns_cons isBreak, addReturns_nil]

theorem startsWith_addReturns {piece : Text} (noFeed : '\n' ∉ piece) (noReturn : '\r' ∉ piece)
    (t : Text) : startsWith (addReturns t) piece = startsWith t piece := by
  induction piece generalizing t with
  | nil =>
      rfl
  | cons d piece hypothesis =>
      have feedOther := List.ne_of_not_mem_cons noFeed
      have returnOther := List.ne_of_not_mem_cons noReturn
      cases t with
      | nil =>
          rfl
      | cons c t =>
          by_cases isBreak : c = '\n'
          · subst isBreak
            have noFeedHere : (d == '\n') = false := beq_false_of_ne (Ne.symm feedOther)
            have noReturnHere : (d == '\r') = false := beq_false_of_ne (Ne.symm returnOther)
            simp [startsWith, List.isPrefixOf, noFeedHere, noReturnHere]
          · have rest := hypothesis (List.not_mem_of_not_mem_cons noFeed)
              (List.not_mem_of_not_mem_cons noReturn) t
            unfold startsWith at rest ⊢
            rw [addReturns_cons isBreak, List.isPrefixOf, List.isPrefixOf, rest]

theorem findChar?_cons (p : Char → Bool) (c : Char) (t : Text) :
    findChar? p (c :: t) = if p c then some 0 else (findChar? p t).map (· + 1) := rfl

theorem findChar?_addReturns (feedOther : p '\n' = false) (returnOther : p '\r' = false)
    (t : Text) : findChar? p (addReturns t) = (findChar? p t).map (moved t) := by
  induction t with
  | nil =>
      rfl
  | cons c t hypothesis =>
      by_cases isBreak : c = '\n'
      · subst isBreak
        simp [findChar?_cons, feedOther, returnOther, hypothesis, Option.map_map, Function.comp_def,
          moved_break_succ]
      · rw [addReturns_cons isBreak, findChar?_cons, findChar?_cons, hypothesis]
        split
        · rfl
        · simp [Option.map_map, Function.comp_def, moved_cons_succ isBreak]

theorem dropWhile_eq_drop_countWhile (p : Char → Bool) (t : Text) :
    t.dropWhile p = t.drop (countWhile p t) := by
  induction t with
  | nil =>
      rfl
  | cons c t hypothesis =>
      rw [List.dropWhile_cons, countWhile_cons]
      split
      · exact hypothesis
      · rfl

theorem exists_drop_of_lt_countWhile {p : Char → Bool} {n : Nat}
    (before : n < countWhile p t) : ∃ c rest, t.drop n = c :: rest ∧ p c = true := by
  induction t generalizing n with
  | nil =>
      cases before
  | cons c t hypothesis =>
      rw [countWhile_cons] at before
      split at before
      · rename_i taken
        cases n with
        | zero =>
            exact ⟨c, t, rfl, taken⟩
        | succ n =>
            exact hypothesis (Nat.lt_of_succ_lt_succ before)
      · cases before

/-- The first character that is looked for, and what stands behind it. -/
theorem exists_drop_of_findChar? {n : Nat} (found : findChar? p t = some n) :
    ∃ c rest, t.drop n = c :: rest ∧ p c = true := by
  induction t generalizing n with
  | nil =>
      cases found
  | cons c t hypothesis =>
      rw [findChar?_cons] at found
      split at found
      · rename_i here
        cases found
        exact ⟨c, t, rfl, here⟩
      · obtain ⟨before, later, rfl⟩ := Option.map_eq_some_iff.mp found
        exact hypothesis later

/-- What stands before a part at the end of a text, as it grows with the text. -/
theorem moved_length_sub (part : u <:+ t) :
    moved t (t.length - u.length) = (addReturns t).length - (addReturns u).length := by
  obtain ⟨before, rfl⟩ := part
  rw [List.length_append, Nat.add_sub_cancel, moved_eq_length (by simp), List.take_left,
    addReturns_append, List.length_append, Nat.add_sub_cancel]

theorem moved_add_length_drop {a : Nat} (inside : a ≤ t.length) :
    moved t a + (addReturns (t.drop a)).length = (addReturns t).length := by
  rw [moved_eq_length inside, ← List.length_append, addReturns_split]

theorem addReturns_suffix (part : u <:+ t) : addReturns u <:+ addReturns t := by
  obtain ⟨before, rfl⟩ := part
  exact ⟨addReturns before, (addReturns_append before u).symm⟩

theorem moved_take {length a : Nat} (inside : a ≤ length) (t : Text) :
    moved (t.take length) a = moved t a := by
  rw [moved, moved, List.take_take, Nat.min_eq_left inside]

/-- An offset in a slice moves in the slice as it does in the text. -/
theorem moved_add_slice {start stop a : Nat} (inside : a ≤ (slice t start stop).length) :
    moved t (start + a) = moved t start + moved (slice t start stop) a := by
  rw [length_slice] at inside
  rw [moved_add, slice, moved_take (by omega)]

theorem not_mem_slice (absent : c ∉ t) (start stop : Nat) : c ∉ slice t start stop :=
  fun member => absent (List.mem_of_mem_drop (List.mem_of_mem_take member))

end Text

/-! ### Moved spans -/

/-- Where a span of a text comes to lie when carriage returns are added to the text. -/
def Span.moved (t : Text) (s : Span) : Span :=
  ⟨s.start + (t.take s.start.toNat).count '\n', s.stop + (t.take s.stop.toNat).count '\n'⟩

theorem Span.moved_ofNats (t : Text) (start stop : Nat) :
    (Span.ofNats start stop).moved t = Span.ofNats (Text.moved t start) (Text.moved t stop) := by
  simp [Span.moved, Span.ofNats, Text.moved]

end MdxLocalization
