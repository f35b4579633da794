import MdxLocalization.Proofs.FragmentNesting
import MdxLocalization.Proofs.LineCuts

/-!
# Lines and breaks make up their text

Between a line and the next one stands one break, and nothing else is left over: the lines with the
breaks between them are the text. An induction along the lines carries this, since behind the first
break the lines are those of a shorter text, further back.

The offsets of a range of lines leave out what is white space only. At the front this is the
indentation of the first line. At the back it is the end of the last line that counts, and behind
it breaks and blank lines by turns.
-/

namespace MdxLocalization

open Text (OneLine IsBreak splitOn)

variable {line mark rest t : Text} {base i j : Nat}

namespace Text

theorem slice_append_add (front t : Text) (start stop : Nat) :
    slice (front ++ t) (front.length + start) (front.length + stop) = slice t start stop := by
  rw [slice, slice, Nat.add_sub_add_left, ← List.drop_drop, List.drop_left]

/-- A later start leaves a part of a slice. -/
theorem slice_subset (t : Text) {start later : Nat} (le : start ≤ later) (stop : Nat) :
    slice t later stop ⊆ slice t start stop := by
  intro c member
  rcases Nat.le_total later stop with inside | behind
  · rw [← slice_append_slice t le inside]
    exact List.mem_append_right _ member
  · rw [slice, Nat.sub_eq_zero_of_le behind, List.take_zero] at member
    cases member

end Text

namespace SourceLines

/-- The characters between two offsets. -/
def between (lines : SourceLines) (start stop : Nat) : Text :=
  Text.slice lines.text (start - lines.base) (stop - lines.base)

/-- The characters from the end of a line to the start of the next one. -/
def breakAfter (lines : SourceLines) (i : Nat) : Text :=
  lines.between (lines.stop i) (lines.start (i + 1))

theorem base_le_stop (lines : SourceLines) (i : Nat) : lines.base ≤ lines.stop i :=
  Nat.le_add_right _ _

theorem between_append (lines : SourceLines) {first middle last : Nat} (lower : first ≤ middle)
    (upper : middle ≤ last) :
    lines.between first middle ++ lines.between middle last = lines.between first last :=
  Text.slice_append_slice _ (Nat.sub_le_sub_right lower _) (Nat.sub_le_sub_right upper _)

/-- What stands between two offsets behind the first break stands between the same offsets of the
text behind it. -/
theorem between_broken (line mark rest : Text) {start stop : Nat} (afterBase : base ≤ start)
    (stopAfterBase : base ≤ stop) :
    (ofText (line ++ (mark ++ rest)) base).between (line.length + mark.length + start)
        (line.length + mark.length + stop) =
      (ofText rest base).between start stop := by
  have shifted := Text.slice_append_add (line ++ mark) rest (start - base) (stop - base)
  rw [List.append_assoc, List.length_append, ← Nat.add_sub_assoc afterBase,
    ← Nat.add_sub_assoc stopAfterBase] at shifted
  exact shifted

/-! ### The first line and those behind it -/

theorem size_oneLine (single : OneLine line) (base : Nat) : (ofText line base).size = 1 := by
  rw [size, bounds_oneLine single, List.length_singleton]

theorem size_broken (single : OneLine line) (isBreak : IsBreak mark rest) (base : Nat) :
    (ofText (line ++ (mark ++ rest)) base).size = (ofText rest base).size + 1 := by
  rw [size, bounds_broken single isBreak, List.length_cons, List.length_map, size]

theorem stop_oneLine (single : OneLine line) (base i : Nat) :
    (ofText line base).stop i = base + line.length := by
  rw [stop, bounds_oneLine single]
  cases i <;> rfl

theorem start_oneLine_succ (single : OneLine line) (base i : Nat) :
    (ofText line base).start (i + 1) = base + line.length := by
  rw [start, bounds_oneLine single]
  rfl

theorem stop_zero (single : OneLine line) (isBreak : IsBreak mark rest) (base : Nat) :
    (ofText (line ++ (mark ++ rest)) base).stop 0 = base + line.length := by
  rw [stop, bounds_broken single isBreak]
  rfl

theorem stop_succ (single : OneLine line) (isBreak : IsBreak mark rest) (base i : Nat) :
    (ofText (line ++ (mark ++ rest)) base).stop (i + 1) =
      line.length + mark.length + (ofText rest base).stop i := by
  rw [stop, stop, bounds_broken single isBreak, List.getElem?_cons_succ, List.getElem?_map]
  cases (ofText rest base).bounds[i]? with
  | none =>
      change base + (line ++ (mark ++ rest)).length = _ + (base + rest.length)
      rw [List.length_append, List.length_append]
      omega
  | some b =>
      change base + (line.length + mark.length + b.2) = _ + (base + b.2)
      omega

theorem breakAfter_oneLine (single : OneLine line) (base i : Nat) :
    (ofText line base).breakAfter i = [] := by
  rw [breakAfter, stop_oneLine single, start_oneLine_succ single, between, Text.slice,
    Nat.sub_self, List.take_zero]

theorem breakAfter_zero (single : OneLine line) (isBreak : IsBreak mark rest) (base : Nat) :
    (ofText (line ++ (mark ++ rest)) base).breakAfter 0 = mark := by
  rw [breakAfter, stop_zero single isBreak, start_succ single isBreak, start_zero]
  change Text.slice (line ++ (mark ++ rest)) (base + line.length - base)
    (line.length + mark.length + base - base) = mark
  rw [Nat.add_sub_cancel_left, Nat.add_sub_cancel, Text.slice, Nat.add_sub_cancel_left,
    List.drop_left, List.take_left]

theorem breakAfter_succ (single : OneLine line) (isBreak : IsBreak mark rest) (base i : Nat) :
    (ofText (line ++ (mark ++ rest)) base).breakAfter (i + 1) =
      (ofText rest base).breakAfter i := by
  rw [breakAfter, stop_succ single isBreak, start_succ single isBreak]
  exact between_broken line mark rest (base_le_stop (ofText rest base) i)
    (base_le_start (ofText rest base) (i + 1))

/-! ### The text from its lines -/

theorem line_eq_between (lines : SourceLines) (i : Nat) :
    lines.line i = lines.between (lines.start i) (lines.stop i) := by
  rw [between]
  cases found : lines.bounds[i]? with
  | none =>
      obtain ⟨starts, stops, empty⟩ := start_of_absent found
      rw [empty, starts, stops, Text.slice, Nat.sub_self, List.take_zero]
  | some b =>
      obtain ⟨starts, stops⟩ := start_of_bounds found
      rw [starts, stops, Nat.add_sub_cancel_left, Nat.add_sub_cancel_left]
      simp only [SourceLines.line, found]

theorem lines_eq_pieces (t : Text) (base : Nat) :
    (List.range (ofText t base).size).map (ofText t base).line =
      splitOn '\n' (Text.normalizeBreaks t) := by
  induction t using Text.lines_induction with
  | last line single =>
      rw [size_oneLine single, Text.normalizeBreaks_eq_self single.2,
        Text.splitOn_of_not_mem single.1, List.range_one, List.map_singleton,
        line_oneLine single, if_pos rfl]
  | broken line mark rest single isBreak hypothesis =>
      rw [size_broken single isBreak, List.range_succ_eq_map, List.map_cons, List.map_map,
        Text.splitOn_normalizeBreaks single isBreak, line_zero single isBreak, ← hypothesis]
      exact congrArg _ (List.map_congr_left fun i _ => line_succ single isBreak)

theorem stop_last (t : Text) (base : Nat) :
    (ofText t base).stop ((ofText t base).size - 1) = base + t.length := by
  induction t using Text.lines_induction with
  | last line single =>
      exact stop_oneLine single base _
  | broken line mark rest single isBreak hypothesis =>
      have filled : 0 < (ofText rest base).size := by
        rcases Text.exists_lines rest with alone | ⟨line, mark, rest, rfl, alone, broken⟩
        · rw [size_oneLine alone]
          exact Nat.one_pos
        · rw [size_broken alone broken]
          exact Nat.succ_pos _
      rw [size_broken single isBreak, Nat.add_sub_cancel, ← Nat.sub_add_cancel filled,
        stop_succ single isBreak, hypothesis, List.length_append, List.length_append]
      omega

/-- One break stands between two lines. -/
theorem isBreak_breakAfter (within : i + 1 < (ofText t base).size) :
    IsBreak ((ofText t base).breakAfter i) (t.drop ((ofText t base).start (i + 1) - base)) := by
  induction t using Text.lines_induction generalizing i with
  | last line single =>
      rw [size_oneLine single] at within
      omega
  | broken line mark rest single isBreak hypothesis =>
      rw [size_broken single isBreak] at within
      have afterBase : base ≤ (ofText rest base).start i := base_le_start (ofText rest base) i
      have behind : (line ++ (mark ++ rest)).drop
            ((ofText (line ++ (mark ++ rest)) base).start (i + 1) - base) =
          rest.drop ((ofText rest base).start i - base) := by
        rw [start_succ single isBreak, Nat.add_sub_assoc afterBase, ← List.append_assoc,
          ← List.length_append, ← List.drop_drop, List.drop_left]
      rw [behind]
      cases i with
      | zero =>
          rw [breakAfter_zero single isBreak, start_zero, Nat.sub_self]
          exact isBreak
      | succ i =>
          rw [breakAfter_succ single isBreak]
          exact hypothesis (Nat.lt_of_succ_lt_succ within)

theorem flatMap_lines (t : Text) (base : Nat) :
    (List.range (ofText t base).size).flatMap
      (fun i => (ofText t base).line i ++ (ofText t base).breakAfter i) = t := by
  induction t using Text.lines_induction with
  | last line single =>
      rw [size_oneLine single, List.range_one, List.flatMap_singleton, line_oneLine single,
        if_pos rfl, breakAfter_oneLine single, List.append_nil]
  | broken line mark rest single isBreak hypothesis =>
      rw [size_broken single isBreak, List.range_succ_eq_map, List.flatMap_cons, List.flatMap_map,
        line_zero single isBreak, breakAfter_zero single isBreak, List.append_assoc]
      refine congrArg (fun behind => line ++ (mark ++ behind)) (Eq.trans ?_ hypothesis)
      exact congrArg (List.flatMap · _) (funext fun i => by
        rw [line_succ single isBreak, breakAfter_succ single isBreak])

/-- The lines of a text are the pieces of the text with its breaks normalised. They start where it
starts and stop where it stops, each is what stands between its two offsets, and between two of them
stands one break, so that lines and breaks make up the text. -/
theorem ofText_tiled (t : Text) (base : Nat) :
    (List.range (ofText t base).size).map (ofText t base).line =
        splitOn '\n' (Text.normalizeBreaks t) ∧
      (ofText t base).start 0 = base ∧
      (ofText t base).stop ((ofText t base).size - 1) = base + t.length ∧
      (∀ i < (ofText t base).size,
        base ≤ (ofText t base).start i ∧ (ofText t base).start i ≤ (ofText t base).stop i ∧
          (ofText t base).line i =
            Text.slice t ((ofText t base).start i - base) ((ofText t base).stop i - base)) ∧
      (∀ i, i + 1 < (ofText t base).size →
        IsBreak
          (Text.slice t ((ofText t base).stop i - base) ((ofText t base).start (i + 1) - base))
          (t.drop ((ofText t base).start (i + 1) - base))) ∧
      (List.range (ofText t base).size).flatMap (fun i =>
        (ofText t base).line i ++
          Text.slice t ((ofText t base).stop i - base) ((ofText t base).start (i + 1) - base)) =
        t := by
  refine ⟨lines_eq_pieces t base, start_zero t base, stop_last t base, fun i _ => ?_,
    fun i within => isBreak_breakAfter within, flatMap_lines t base⟩
  exact ⟨base_le_start (ofText t base) i, ((ofText_ordered t base).stop_le i).1,
    line_eq_between (ofText t base) i⟩

/-! ### What an extent leaves out -/

theorem Ordered.stop_mono {lines : SourceLines} (ordered : lines.Ordered) (le : i ≤ j) :
    lines.stop i ≤ lines.stop j := by
  rcases Nat.eq_or_lt_of_le le with rfl | before
  · exact Nat.le_refl _
  · exact Nat.le_trans (ordered.stop_le_start before) (ordered.stop_le j).1

theorem blank_breakAfter (t : Text) (base i : Nat) :
    ∀ c ∈ (ofText t base).breakAfter i, Text.isBlank c = true := by
  induction t using Text.lines_induction generalizing i with
  | last line single =>
      rw [breakAfter_oneLine single]
      exact List.forall_mem_nil _
  | broken line mark rest single isBreak hypothesis =>
      cases i with
      | zero =>
          rw [breakAfter_zero single isBreak]
          exact List.all_eq_true.mp (by cases isBreak <;> rfl)
      | succ i =>
          rw [breakAfter_succ single isBreak]
          exact hypothesis i

/-- Behind a line stands white space as far as the lines are blank. -/
theorem blank_between (reaches : i ≤ j)
    (blank : ∀ k, i < k → k ≤ j → (ofText t base).isBlank k = true) :
    ∀ c ∈ (ofText t base).between ((ofText t base).stop i) ((ofText t base).stop j),
      Text.isBlank c = true := by
  have ordered := ofText_ordered t base
  induction reaches with
  | refl =>
      rw [between, Text.slice, Nat.sub_self, List.take_zero]
      exact List.forall_mem_nil _
  | @step j reaches hypothesis =>
      have before := ordered.stop_mono reaches
      have after := ordered.stop_le_start (Nat.lt_succ_self j)
      have inside := (ordered.stop_le (j + 1)).1
      rw [← between_append _ before (Nat.le_trans after inside), ← between_append _ after inside,
        ← line_eq_between]
      intro c member
      rcases List.mem_append.mp member with early | late
      · exact hypothesis (fun k above below => blank k above (Nat.le_succ_of_le below)) c early
      rcases List.mem_append.mp late with inBreak | inLine
      · exact blank_breakAfter t base j c inBreak
      · exact List.all_eq_true.mp (blank (j + 1) (Nat.lt_succ_of_le reaches) (Nat.le_refl _)) c
          inLine

/-- A range of lines is cut behind its first line or behind a line that is not blank, and the lines
that are cut off are blank. -/
theorem exists_trimRange (lines : SourceLines) {first last : Nat} (filled : first < last) :
    ∃ i, lines.trimRange first last = i + 1 ∧ first ≤ i ∧ i < last ∧
      (i = first ∨ lines.isBlank i = false) ∧ ∀ k, i < k → k < last → lines.isBlank k = true := by
  induction last with
  | zero =>
      exact absurd filled (Nat.not_lt_zero _)
  | succ last hypothesis =>
      rw [trimRange]
      split
      · rename_i trimmed
        rw [Bool.and_eq_true, decide_eq_true_eq] at trimmed
        obtain ⟨i, cut, lower, upper, counts, blank⟩ := hypothesis trimmed.1
        refine ⟨i, cut, lower, Nat.lt_succ_of_lt upper, counts, fun k above below => ?_⟩
        rcases Nat.eq_or_lt_of_le (Nat.le_of_lt_succ below) with rfl | inside
        · exact trimmed.2
        · exact blank k above inside
      · rename_i kept
        refine ⟨last, rfl, Nat.le_of_lt_succ filled, Nat.lt_succ_self _, ?_,
          fun k above below => ?_⟩
        · rcases Nat.eq_or_lt_of_le (Nat.le_of_lt_succ filled) with same | behind
          · exact Or.inl same.symm
          · rw [Bool.and_eq_true, decide_eq_true_eq, not_and, Bool.not_eq_true] at kept
            exact Or.inr (kept behind)
        · omega

/-- Two parts of a line stand in the text one after the other. -/
theorem Ordered.between_of_append {lines : SourceLines} (ordered : lines.Ordered)
    {front behind : Text} (parts : lines.line i = front ++ behind) :
    lines.between (lines.start i) (lines.start i + front.length) = front ∧
      lines.between (lines.start i + front.length) (lines.stop i) = behind := by
  have inLine := ordered.start_add_length_le_stop i
  have inText := ordered.start_add_length_le i
  have afterBase := lines.base_le_start i
  rw [parts, List.length_append] at inLine inText
  have whole := lines.between_append (Nat.le_add_right (lines.start i) front.length)
    (show lines.start i + front.length ≤ lines.stop i by omega)
  rw [← line_eq_between, parts] at whole
  refine List.append_inj whole ?_
  rw [between, Text.length_slice]
  omega

/-- Where the content of a line starts, behind its spaces and tabs. -/
def contentStart (lines : SourceLines) (i : Nat) : Nat :=
  lines.start i + Text.countWhile Text.isIndent (lines.line i)

theorem Ordered.contentStart_le_stop {lines : SourceLines} (ordered : lines.Ordered) (i : Nat) :
    lines.contentStart i ≤ lines.stop i := by
  have inLine := ordered.start_add_length_le_stop i
  have shorter := Text.countWhile_le_length Text.isIndent (lines.line i)
  rw [contentStart]
  omega

/-- An extent goes from the content of the first line to that of the last line that counts, which is
the first one or not blank. -/
theorem exists_extent (lines : SourceLines) {first last : Nat} (filled : first < last) :
    ∃ i, lines.extent first last =
        (lines.contentStart first, max (lines.contentStart first) (lines.contentStop i)) ∧
      first ≤ i ∧ i < last ∧ (i = first ∨ lines.isBlank i = false) ∧
      ∀ k, i < k → k ≤ last - 1 → lines.isBlank k = true := by
  obtain ⟨i, cut, lower, upper, counts, blank⟩ := exists_trimRange lines filled
  refine ⟨i, ?_, lower, upper, counts, fun k above below => blank k above (by omega)⟩
  rw [extent, cut]
  rfl

/-- Spaces and tabs stand before the content of a line. -/
theorem Ordered.indent_before {lines : SourceLines} (ordered : lines.Ordered) (i : Nat) :
    ∀ c ∈ lines.between (lines.start i) (lines.contentStart i), Text.isIndent c = true := by
  have parts := List.takeWhile_append_dropWhile (p := Text.isIndent) (l := lines.line i)
  rw [contentStart, ← Text.length_takeWhile, (ordered.between_of_append parts.symm).1]
  exact List.all_eq_true.mp List.all_takeWhile

/-- Behind the content of a line stands white space as far as the lines are blank. -/
theorem blank_behind (reaches : i ≤ j)
    (blank : ∀ k, i < k → k ≤ j → (ofText t base).isBlank k = true) :
    ∀ c ∈ (ofText t base).between ((ofText t base).contentStop i) ((ofText t base).stop j),
      Text.isBlank c = true := by
  have ordered := ofText_ordered t base
  obtain ⟨tail, parts, indents⟩ := Text.exists_dropped Text.isIndent ((ofText t base).line i)
  intro c member
  rw [← between_append (ofText t base) (ordered.contentStop_le i)
    (ordered.stop_mono reaches), contentStop, (ordered.between_of_append parts.symm).2] at member
  rcases List.mem_append.mp member with inTail | behind
  · exact Text.isBlank_of_isIndent (indents c inTail)
  · exact blank_between reaches blank c behind

/-- The content of a line ends with a character that is no space and no tab. -/
theorem exists_solid_before_contentStop
    (content : (ofText t base).start i < (ofText t base).contentStop i) :
    ∃ c, t[(ofText t base).contentStop i - 1 - base]? = some c ∧ Text.isIndent c = false := by
  have afterBase : base ≤ (ofText t base).start i := base_le_start (ofText t base) i
  have inLine := (ofText_ordered t base).contentStop_le i
  rw [contentStop] at content inLine ⊢
  obtain ⟨c, found, solid⟩ :=
    Text.exists_solid_end (p := Text.isIndent) (t := (ofText t base).line i) (by omega)
  generalize (Text.dropEndWhile Text.isIndent ((ofText t base).line i)).length = size at *
  rw [line_eq_between, between, show (ofText t base).base = base from rfl,
    show (ofText t base).text = t from rfl, Text.getElem?_slice t (by omega)] at found
  refine ⟨c, ?_, solid⟩
  rw [← found]
  congr 1
  omega

theorem start_lt_contentStop {lines : SourceLines} (solid : lines.isBlank i = false) :
    lines.start i < lines.contentStop i := by
  obtain ⟨tail, parts, indents⟩ := Text.exists_dropped Text.isIndent (lines.line i)
  refine Nat.lt_add_of_pos_right (List.length_pos_iff.mpr fun empty => ?_)
  rw [empty, List.nil_append] at parts
  have blank : lines.isBlank i = true := by
    rw [isBlank, ← parts]
    exact List.all_eq_true.mpr fun c member => Text.isBlank_of_isIndent (indents c member)
  rw [solid] at blank
  cases blank

/-- The offsets of a range of lines leave out white space only: in front the spaces and tabs of the
first line, and behind breaks, blank lines and the spaces and tabs of the last line that counts.
What is left ends in a line that is not blank, or in the first one, and not with a space or a
tab. -/
theorem extent_trims {first last start stop : Nat} (filled : first < last)
    (located : (ofText t base).extent first last = (start, stop)) :
    (ofText t base).start first ≤ start ∧ start ≤ stop ∧
      stop ≤ (ofText t base).stop (last - 1) ∧
      (∀ c ∈ Text.slice t ((ofText t base).start first - base) (start - base),
        Text.isIndent c = true) ∧
      (∀ c ∈ Text.slice t (stop - base) ((ofText t base).stop (last - 1) - base),
        Text.isBlank c = true) ∧
      (start < stop → ∃ i, first ≤ i ∧ i < last ∧
        (ofText t base).start i < stop ∧ stop ≤ (ofText t base).stop i ∧
        (i = first ∨ (ofText t base).isBlank i = false) ∧
        ∃ c, t[stop - 1 - base]? = some c ∧ Text.isIndent c = false) := by
  have ordered := ofText_ordered t base
  obtain ⟨i, isExtent, lower, upper, counts, blank⟩ := exists_extent (ofText t base) filled
  have blanks := blank_behind (Nat.le_sub_one_of_lt upper) blank
  have startInside := Nat.le_trans (ordered.contentStart_le_stop first)
    (ordered.stop_mono (Nat.le_sub_one_of_lt filled))
  have stopInside := Nat.le_trans (ordered.contentStop_le i)
    (ordered.stop_mono (Nat.le_sub_one_of_lt upper))
  obtain ⟨rfl, rfl⟩ := Prod.mk.inj (isExtent.symm.trans located)
  refine ⟨Nat.le_add_right _ _, Nat.le_max_left _ _, Nat.max_le.mpr ⟨startInside, stopInside⟩,
    ordered.indent_before first, fun c member => ?_, fun something => ?_⟩
  · refine blanks c (Text.slice_subset t ?_ _ member)
    exact Nat.sub_le_sub_right (Nat.le_max_right _ _) base
  · -- The bounds have not crossed, so the range ends where the content of the line does.
    have inOrder : (ofText t base).contentStart first < (ofText t base).contentStop i :=
      Nat.lt_of_not_le fun crossed =>
        Nat.lt_irrefl _ (Nat.max_eq_left crossed ▸ something)
    rw [Nat.max_eq_right (Nat.le_of_lt inOrder)]
    have content : (ofText t base).start i < (ofText t base).contentStop i := by
      rcases counts with rfl | solid
      · exact Nat.lt_of_le_of_lt (Nat.le_add_right _ _) inOrder
      · exact start_lt_contentStop solid
    exact ⟨i, lower, upper, content, ordered.contentStop_le i, counts,
      exists_solid_before_contentStop content⟩

/-- Three kinds of breaks, and a line of white space that is wider than spaces and tabs. -/
def raggedText : Text := Text.ofString " x\r\n  a \u3000\t\r\t\u3000 \r\n \n"

/-- The range reaches past the last line, and all lines behind the second one are blank. -/
theorem extent_trims_raggedText :
    0 < 9 ∧ (ofText raggedText 7).extent 0 9 = (8, 16) ∧
      (ofText raggedText 7).start 0 ≤ 8 ∧ 8 ≤ 16 ∧ 16 ≤ (ofText raggedText 7).stop (9 - 1) ∧
      (∀ c ∈ Text.ofString " ", Text.isIndent c = true) ∧
      (∀ c ∈ Text.ofString "\t\r\t\u3000 \r\n \n", Text.isBlank c = true) ∧
      ∃ i, 0 ≤ i ∧ i < 9 ∧ (ofText raggedText 7).start i < 16 ∧ 16 ≤ (ofText raggedText 7).stop i ∧
        (i = 0 ∨ (ofText raggedText 7).isBlank i = false) ∧
        ∃ c, raggedText[16 - 1 - 7]? = some c ∧ Text.isIndent c = false := by
  have located : (ofText raggedText 7).extent 0 9 = (8, 16) := by decide
  obtain ⟨lower, inOrder, upper, indents, blanks, ends⟩ := extent_trims (by decide) located
  exact ⟨by decide, located, lower, inOrder, upper, indents, blanks, ends (by decide)⟩

end SourceLines

end MdxLocalization
