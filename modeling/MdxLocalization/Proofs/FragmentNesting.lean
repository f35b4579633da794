import MdxLocalization.Proofs.BlockOrder
import MdxLocalization.Proofs.FragmentRange

/-!
# Located content nests

The extent of a range of lines starts at the first character of the first line that does not indent
it and ends with the last character that does not trail. So ranges of lines that nest have extents
that nest, as long as the inner range starts with a line that is not blank, and whatever begins and
ends with a character of the first line that is no indentation lies in the extent.

Content that is located in a line begins and ends with such characters: the content of a heading,
cells, and labels.
-/

namespace MdxLocalization

/-! ### Characters that do not indent -/

namespace Text

/-- A character that does not indent stands behind the indentation of a text and before the spaces
and tabs at its end. -/
theorem solid_bounds {t : Text} {i : Nat} {c : Char} (found : t[i]? = some c)
    (solid : isIndent c = false) :
    countWhile isIndent t ≤ i ∧ i < (dropEndWhile isIndent t).length := by
  constructor
  · induction t generalizing i with
    | nil =>
        exact Nat.zero_le i
    | cons d rest hypothesis =>
        rw [countWhile]
        split
        · rename_i indents
          cases i with
          | zero =>
              rw [List.getElem?_cons_zero, Option.some.injEq] at found
              rw [found, solid] at indents
              cases indents
          | succ i =>
              rw [List.getElem?_cons_succ] at found
              exact Nat.succ_le_succ (hypothesis found)
        · exact Nat.zero_le i
  · obtain ⟨tail, parts, dropped⟩ := exists_dropped isIndent t
    by_contra outside
    rw [← parts, List.getElem?_append_right (Nat.not_lt.mp outside)] at found
    rw [dropped c (List.mem_of_getElem? found)] at solid
    cases solid

theorem isBlank_of_isIndent {c : Char} (indents : isIndent c = true) : isBlank c = true := by
  simp only [isIndent, Bool.or_eq_true, beq_iff_eq] at indents
  rcases indents with rfl | rfl <;> rfl

theorem isIndent_of_not_isBlank {c : Char} (solid : isBlank c = false) : isIndent c = false := by
  by_contra indents
  rw [Bool.not_eq_false] at indents
  rw [isBlank_of_isIndent indents] at solid
  cases solid

theorem countWhile_le_of_not_isBlankText {t : Text} (filled : isBlankText t = false) :
    countWhile isIndent t ≤ (dropEndWhile isIndent t).length := by
  obtain ⟨c, member, solid⟩ := List.all_eq_false.mp filled
  obtain ⟨i, found⟩ := List.getElem?_of_mem member
  have bounds := solid_bounds found (isIndent_of_not_isBlank (Bool.not_eq_true _ ▸ solid))
  omega

theorem isIndent_of_dropped {t : Text} {c : Char}
    (found : t[(dropEndWhile isIndent t).length]? = some c) : isIndent c = true := by
  obtain ⟨tail, parts, dropped⟩ := exists_dropped isIndent t
  apply dropped
  generalize dropEndWhile isIndent t = kept at parts found
  rw [← parts, List.getElem?_append_right (Nat.le_refl _), Nat.sub_self] at found
  exact List.mem_of_getElem? found

/-- Behind the characters at the start of a text that satisfy a predicate comes one that does
not. -/
theorem exists_solid_start {p : Char → Bool} {t : Text}
    (something : t.length - (t.dropWhile p).length < t.length) :
    ∃ c, t[t.length - (t.dropWhile p).length]? = some c ∧ p c = false := by
  have holds := List.head?_dropWhile_not p t
  have parts := List.takeWhile_append_dropWhile (p := p) (l := t)
  cases left : t.dropWhile p with
  | nil =>
      simp [left] at something
  | cons c rest =>
      rw [left] at holds parts
      have size := congrArg List.length parts
      rw [List.length_append] at size
      refine ⟨c, ?_, holds⟩
      rw [show t.length - (c :: rest).length = (t.takeWhile p).length by omega]
      generalize t.takeWhile p = lead at parts
      rw [← parts, List.getElem?_append_right (Nat.le_refl _), Nat.sub_self]
      rfl

theorem exists_solid_end {p : Char → Bool} {t : Text} (something : 0 < (dropEndWhile p t).length) :
    ∃ c, t[(dropEndWhile p t).length - 1]? = some c ∧ p c = false := by
  have holds := List.head?_dropWhile_not p t.reverse
  obtain ⟨tail, parts, -⟩ := exists_dropped p t
  unfold dropEndWhile at something parts ⊢
  cases left : t.reverse.dropWhile p with
  | nil =>
      simp [left] at something
  | cons c rest =>
      rw [left] at holds parts
      refine ⟨c, ?_, holds⟩
      rw [← parts, List.length_reverse, List.length_cons, Nat.add_sub_cancel, List.reverse_cons,
        List.append_assoc, ← List.length_reverse, List.getElem?_append_right (Nat.le_refl _),
        Nat.sub_self]
      rfl

theorem exists_drop_of_find? {piece t : Text} {n : Nat} (found : find? piece t = some n) :
    ∃ rest, t.drop n = piece ++ rest := by
  induction t generalizing n with
  | nil =>
      rw [find?] at found
      split at found
      · rename_i empty
        cases found
        rw [List.isEmpty_iff.mp empty]
        exact ⟨[], rfl⟩
      · cases found
  | cons c rest hypothesis =>
      rw [find?] at found
      split at found
      · rename_i starts
        cases found
        obtain ⟨tail, parts⟩ := List.isPrefixOf_iff_prefix.mp starts
        exact ⟨tail, parts.symm⟩
      · obtain ⟨before, later, rfl⟩ := Option.map_eq_some_iff.mp found
        exact hypothesis later

end Text

/-! ### Extents -/

namespace SourceLines

variable {lines : SourceLines}

theorem isBlank_trimRange {first last : Nat} (filled : lines.isBlank first = false)
    (inOrder : first < last) : lines.isBlank (lines.trimRange first last - 1) = false := by
  induction last with
  | zero =>
      omega
  | succ last hypothesis =>
      rw [trimRange_succ]
      split
      · rename_i trimmed
        rw [Bool.and_eq_true, decide_eq_true_eq] at trimmed
        exact hypothesis trimmed.1
      · rename_i kept
        rw [Bool.and_eq_true, decide_eq_true_eq, not_and, Bool.not_eq_true] at kept
        rw [Nat.add_sub_cancel]
        rcases Nat.lt_or_ge first last with inside | least
        · exact kept inside
        · rw [show last = first by omega]
          exact filled

theorem lt_trimRange_of_filled {first last i : Nat} (filled : lines.isBlank i = false)
    (inside : i < last) : i < lines.trimRange first last := by
  induction last with
  | zero =>
      omega
  | succ last hypothesis =>
      rw [trimRange_succ]
      split
      · rename_i trimmed
        rw [Bool.and_eq_true] at trimmed
        apply hypothesis
        by_contra outside
        rw [show i = last by omega, trimmed.2] at filled
        cases filled
      · exact inside

/-- A blank line behind a range does not belong to its extent. -/
theorem extent_succ_of_isBlank {first last : Nat} (inOrder : first < last)
    (blank : lines.isBlank last = true) :
    lines.extent first (last + 1) = lines.extent first last := by
  have same : lines.trimRange first (last + 1) = lines.trimRange first last := by
    rw [trimRange_succ, blank, Bool.and_true, decide_eq_true inOrder, if_pos rfl]
  rw [extent, extent, same]

/-- The offset behind the content of a line. -/
def contentStop (lines : SourceLines) (line : Nat) : Nat :=
  lines.start line + (Text.dropEndWhile Text.isIndent (lines.line line)).length

theorem Ordered.contentStop_le (ordered : lines.Ordered) (i : Nat) :
    lines.contentStop i ≤ lines.stop i := by
  have kept := Text.length_dropEndWhile_le Text.isIndent (lines.line i)
  have inLine := ordered.start_add_length_le_stop i
  unfold contentStop
  omega

theorem Ordered.contentStop_mono (ordered : lines.Ordered) {i j : Nat} (le : i ≤ j) :
    lines.contentStop i ≤ lines.contentStop j := by
  rcases Nat.eq_or_lt_of_le le with same | before
  · exact Nat.le_of_eq (congrArg lines.contentStop same)
  · exact Nat.le_trans (ordered.contentStop_le i)
      (Nat.le_trans (ordered.stop_le_start before) (Nat.le_add_right _ _))

theorem contentStop_le_extent (lines : SourceLines) (first last : Nat) :
    lines.contentStop (lines.trimRange first last - 1) ≤ (lines.extent first last).2 :=
  Nat.le_max_right _ _

/-- The extent of lines of which the first one is not blank ends with the content of a line. -/
theorem Ordered.extent_stop_eq (ordered : lines.Ordered) {first last : Nat}
    (filled : lines.isBlank first = false) (inOrder : first < last) :
    (lines.extent first last).2 = lines.contentStop (lines.trimRange first last - 1) := by
  have kept : first < lines.trimRange first last := lt_trimRange inOrder
  have indent := Text.countWhile_le_of_not_isBlankText filled
  have le := ordered.contentStop_mono (show first ≤ lines.trimRange first last - 1 by omega)
  apply Nat.max_eq_right
  unfold contentStop at le
  omega

theorem Ordered.extent_nests (ordered : lines.Ordered) {first last first' last' : Nat}
    (filled : lines.isBlank first' = false) (after : first ≤ first') (inOrder : first' < last')
    (before : last' ≤ last) :
    (lines.extent first last).1 ≤ (lines.extent first' last').1 ∧
      (lines.extent first' last').2 ≤ (lines.extent first last).2 := by
  constructor
  · rcases Nat.eq_or_lt_of_le after with same | later
    · rw [same]
      exact Nat.le_refl _
    · have indent := Text.countWhile_le_length Text.isIndent (lines.line first)
      have inLine := ordered.start_add_length_le_stop first
      have behind := ordered.stop_le_start later
      simp only [extent]
      omega
  · rw [ordered.extent_stop_eq filled inOrder]
    refine Nat.le_trans (ordered.contentStop_mono ?_) (contentStop_le_extent lines first last)
    have kept : first' < lines.trimRange first' last' := lt_trimRange inOrder
    have shorter := trimRange_le lines first' last'
    have stays : lines.trimRange first' last' - 1 < lines.trimRange first last :=
      lt_trimRange_of_filled (isBlank_trimRange filled inOrder) (by omega)
    omega

/-- What begins and ends with a character of the first line that does not indent lies in the
extent. -/
theorem Ordered.solid_in_extent (ordered : lines.Ordered) {first last i j : Nat} {c d : Char}
    (inOrder : first < last) (begins : (lines.line first)[i]? = some c)
    (solid : Text.isIndent c = false) (ends : (lines.line first)[j]? = some d)
    (solid' : Text.isIndent d = false) :
    (lines.extent first last).1 ≤ lines.start first + i ∧
      lines.start first + j + 1 ≤ (lines.extent first last).2 := by
  have kept : first < lines.trimRange first last := lt_trimRange inOrder
  have le := ordered.contentStop_mono (show first ≤ lines.trimRange first last - 1 by omega)
  have stops := contentStop_le_extent lines first last
  constructor
  · exact Nat.add_le_add_left (Text.solid_bounds begins solid).1 _
  · have bound := (Text.solid_bounds ends solid').2
    have inContent : lines.start first + j + 1 ≤ lines.contentStop first := by
      unfold contentStop
      omega
    exact Nat.le_trans inContent (Nat.le_trans le stops)

end SourceLines

/-! ### Where lines end -/

/-- A line ends with the text or at a line break. -/
theorem lineBounds_ends {start position : Nat} (t : Text) (begun : start ≤ position) :
    ∀ b ∈ lineBounds start position t, position ≤ b.2 ∧
      (b.2 = position + t.length ∨ t[b.2 - position]? = some '\r' ∨
        t[b.2 - position]? = some '\n') := by
  induction start, position, t using lineBounds.induct with
  | case1 start position =>
      intro b member
      rw [lineBounds, List.mem_singleton] at member
      subst member
      exact ⟨Nat.le_refl _, Or.inl rfl⟩
  | case2 start position rest hypothesis =>
      intro b member
      rw [lineBounds, List.mem_cons] at member
      rcases member with rfl | later
      · simp
      · obtain ⟨after, ends⟩ := hypothesis (Nat.le_refl _) b later
        refine ⟨by omega, ?_⟩
        rw [show b.2 - position = b.2 - (position + 2) + 1 + 1 by omega]
        simp only [List.length_cons, List.getElem?_cons_succ]
        refine ends.imp_left fun atEnd => by omega
  | case3 start position c rest single isBreak hypothesis =>
      intro b member
      rw [lineBounds.eq_3 _ _ _ _ single, if_pos isBreak, List.mem_cons] at member
      rcases member with rfl | later
      · simpa using isBreak
      · obtain ⟨after, ends⟩ := hypothesis (Nat.le_refl _) b later
        refine ⟨by omega, ?_⟩
        rw [show b.2 - position = b.2 - (position + 1) + 1 by omega]
        simp only [List.length_cons, List.getElem?_cons_succ]
        exact ends.imp_left fun atEnd => by omega
  | case4 start position c rest single noBreak hypothesis =>
      intro b member
      rw [lineBounds.eq_3 _ _ _ _ single, if_neg noBreak] at member
      obtain ⟨after, ends⟩ := hypothesis (Nat.le_succ_of_le begun) b member
      refine ⟨by omega, ?_⟩
      rw [show b.2 - position = b.2 - (position + 1) + 1 by omega]
      simp only [List.length_cons, List.getElem?_cons_succ]
      exact ends.imp_left fun atEnd => by omega

/-- Behind the content of a line comes a space, a tab, a line break or the end of the text. -/
theorem SourceLines.behind_content {t : Text} {base line : Nat} {c : Char}
    (found : t[(ofText t base).contentStop line - base]? = some c) :
    Text.isIndent c = true ∨ c = '\r' ∨ c = '\n' := by
  unfold contentStop at found
  cases shown : (ofText t base).bounds[line]? with
  | none =>
      obtain ⟨atEnd, -, -⟩ := start_of_absent shown
      have inText := (List.getElem?_eq_some_iff.mp found).1
      rw [atEnd] at inText
      change base + t.length + _ - base < t.length at inText
      omega
  | some b =>
      have member : b ∈ lineBounds 0 0 t := List.mem_of_getElem? shown
      have bounds := lineBounds_within _ (Nat.le_refl 0) b member
      obtain ⟨-, ends⟩ := lineBounds_ends _ (Nat.le_refl 0) b member
      have content : (ofText t base).line line = Text.slice t b.1 b.2 := by
        simp only [SourceLines.line, shown]
        rfl
      rw [(start_of_bounds shown).1, content] at found
      change t[base + b.1 + _ - base]? = _ at found
      have kept := Text.length_dropEndWhile_le Text.isIndent (Text.slice t b.1 b.2)
      have length := Text.length_slice t b.1 b.2
      rw [Nat.add_assoc, Nat.add_sub_cancel_left] at found
      generalize size : (Text.dropEndWhile Text.isIndent (Text.slice t b.1 b.2)).length = n
        at found kept
      rcases Nat.lt_or_ge n (b.2 - b.1) with inside | whole
      · rw [← Text.getElem?_slice t (show b.1 + n < b.2 by omega), ← size] at found
        exact Or.inl (Text.isIndent_of_dropped found)
      · rw [show b.1 + n = b.2 by omega] at found
        rw [Nat.sub_zero, Nat.zero_add, found, Option.some.injEq, Option.some.injEq] at ends
        rcases ends with atEnd | broken
        · have inText := (List.getElem?_eq_some_iff.mp found).1
          omega
        · exact Or.inr broken

namespace Document

open Markdown (LineRange)

namespace Fragment

/-- No line has its content followed by the bracket that closes a tag. -/
def Sealed (f : Fragment) : Prop := ∀ line, f.source[f.lines.contentStop line]? ≠ some '>'

theorem between_sealed {source : Text} {start stop : Nat} (inOrder : start ≤ stop)
    (within : stop ≤ source.length) (unclosed : source[stop]? ≠ some '>') (whole : Bool) :
    (between source start stop whole).Sealed := by
  intro line closes
  have ordered := SourceLines.ofText_ordered (Text.slice source start stop) start
  have after : start ≤ (between source start stop whole).lines.contentStop line :=
    Nat.le_trans (SourceLines.base_le_start (between source start stop whole).lines line)
      (Nat.le_add_right _ _)
  have before : (between source start stop whole).lines.contentStop line ≤
      start + (Text.slice source start stop).length :=
    Nat.le_trans (ordered.contentStop_le line) (ordered.stop_le line).2
  rw [Text.length_slice] at before
  rcases Nat.lt_or_ge ((between source start stop whole).lines.contentStop line) stop
    with inside | atEnd
  · have shown : (Text.slice source start stop)[
        (between source start stop whole).lines.contentStop line - start]? = some '>' := by
      rw [Text.getElem?_slice _ (by omega), Nat.add_sub_cancel' after]
      exact closes
    rcases SourceLines.behind_content shown with indents | same | same
    · exact absurd indents (by decide)
    · exact absurd same (by decide)
    · exact absurd same (by decide)
  · have same : (between source start stop whole).lines.contentStop line = stop := by omega
    rw [same] at closes
    exact unclosed closes

variable {f : Fragment}

/-- A region lies in the extent of a range of lines. -/
def Holds (f : Fragment) (lines : LineRange) (region : Region) : Prop :=
  (f.lines.extent lines.first lines.last).1 ≤ region.1 ∧ region.1 ≤ region.2 ∧
    region.2 ≤ (f.lines.extent lines.first lines.last).2

instance (f : Fragment) (lines : LineRange) (region : Region) : Decidable (f.Holds lines region) :=
  inferInstanceAs (Decidable (_ ∧ _ ∧ _))

/-- The lines that the span of a directive takes up: with the line behind its content, on which the
closing mark should stand, unless that line is blank. -/
def withClosing (f : Fragment) (lines : LineRange) : LineRange :=
  if f.lines.isBlank lines.last then lines else ⟨lines.first, lines.last + 1⟩

theorem withClosing_first (lines : LineRange) : (f.withClosing lines).first = lines.first := by
  unfold withClosing
  split <;> rfl

theorem le_withClosing_last (lines : LineRange) : lines.last ≤ (f.withClosing lines).last := by
  unfold withClosing
  split
  · exact Nat.le_refl _
  · exact Nat.le_succ _

theorem isBlank_of_size_le {line : Nat} (past : f.lines.size ≤ line) :
    f.lines.isBlank line = true := by
  have absent : f.lines.bounds[line]? = none := List.getElem?_eq_none_iff.mpr past
  simp [SourceLines.isBlank, (SourceLines.start_of_absent absent).2.2, Text.isBlankText]

theorem directiveSpan_eq {lines : LineRange} (filled : lines.first < lines.last) :
    f.directiveSpan lines = f.spanOfLines (f.withClosing lines) := by
  unfold directiveSpan withClosing
  by_cases inside : lines.last < f.lines.size
  · rw [if_pos inside]
    split
    · rename_i blank
      simp only [spanOfLines, SourceLines.extent_succ_of_isBlank filled blank]
    · rfl
  · rw [if_neg inside, if_pos (isBlank_of_size_le (Nat.not_lt.mp inside))]

/-! ### Headings -/

theorem Within.locateHeading?_holds (within : f.Within) {lines : LineRange} {content : Text}
    {region : Region} (filled : lines.first < lines.last) (trimmed : Markdown.Trimmed content)
    (found : f.locateHeading? lines.first content = some region) : f.Holds lines region := by
  unfold locateHeading? at found
  dsimp only at found
  generalize ite (min 6 _ = 0) 0 _ = marker at found
  split at found
  · cases found
  · rename_i something
    obtain ⟨n, occurs, rfl⟩ := Option.map_eq_some_iff.mp found
    obtain ⟨rest, parts⟩ := Text.exists_drop_of_find? occurs
    rw [List.drop_drop] at parts
    have nonempty : content ≠ [] := fun empty => something (List.isEmpty_iff.mpr empty)
    have positive : 0 < content.length := List.length_pos_iff.mpr nonempty
    have at_ {i : Nat} (inside : i < content.length) :
        (f.lines.line lines.first)[marker + n + i]? = content[i]? := by
      rw [← List.getElem?_drop, parts, List.getElem?_append_left inside]
    have begins := at_ positive
    have ends := at_ (Nat.sub_lt positive Nat.one_pos)
    rw [List.getElem?_eq_getElem positive] at begins
    rw [List.getElem?_eq_getElem (Nat.sub_lt positive Nat.one_pos)] at ends
    have solid : Text.isIndent content[0] = false :=
      trimmed.1 _ (by rw [List.head?_eq_getElem?, List.getElem?_eq_getElem positive]; rfl)
    have solid' : Text.isIndent content[content.length - 1] = false :=
      trimmed.2 _ (by
        rw [List.getLast?_eq_getElem?, List.getElem?_eq_getElem (Nat.sub_lt positive Nat.one_pos)]
        rfl)
    obtain ⟨after, before⟩ := within.ordered.solid_in_extent filled begins solid ends solid'
    refine ⟨?_, ?_, ?_⟩ <;> dsimp only <;> omega

/-! ### Cells -/

/-- The bounds of cells follow one another. -/
theorem cellBounds_inOrder {start position : Nat} (begun : start ≤ position) (escaped : Bool)
    (t : Text) :
    (cellBounds start position escaped t).Pairwise (fun a b => a.2 ≤ b.1) ∧
      ∀ b ∈ cellBounds start position escaped t, start ≤ b.1 := by
  induction t generalizing start position escaped with
  | nil =>
      simp [cellBounds_nil]
  | cons c rest hypothesis =>
      rw [cellBounds_cons]
      split
      · obtain ⟨inOrder, after⟩ := hypothesis (Nat.le_refl (position + 1)) false
        constructor
        · refine List.pairwise_cons.mpr ⟨fun b later => ?_, inOrder⟩
          exact Nat.le_of_succ_le (after b later)
        · refine List.forall_mem_cons.mpr ⟨Nat.le_refl start, fun b later => ?_⟩
          exact Nat.le_trans begun (Nat.le_of_succ_le (after b later))
      · exact hypothesis (Nat.le_succ_of_le begun) _

/-- The region of a cell with given bounds in a line. -/
def cellRegion (f : Fragment) (line : Nat) (b : Region) : Region :=
  let cell := Text.slice (f.lines.line line) b.1 b.2
  let lead := cell.length - (Text.trimStart cell).length
  let trail := cell.length - (Text.trimEnd cell).length
  (f.lines.start line + b.1 + lead, f.lines.start line + max (b.1 + lead) (b.2 - trail))

theorem exists_cells (f : Fragment) (line : Nat) :
    ∃ kept : List Region, kept.Sublist (cellBounds 0 0 false (f.lines.line line)) ∧
      f.locateCells line = kept.map (f.cellRegion line) := by
  refine ⟨_, ?_, rfl⟩
  split <;> split
  · exact (List.dropLast_sublist _).trans (List.drop_sublist 1 _)
  · exact List.drop_sublist 1 _
  · exact List.dropLast_sublist _
  · exact List.Sublist.refl _

/-- The content of a cell stands between its bounds. If there is any, it begins and ends with a
character that is not white space. -/
theorem cellRegion_bounds {line : Nat} {b : Region} (proper : b.1 ≤ b.2)
    (inLine : b.2 ≤ (f.lines.line line).length) :
    f.lines.start line + b.1 ≤ (f.cellRegion line b).1 ∧
      (f.cellRegion line b).2 ≤ f.lines.start line + b.2 ∧
      ((f.cellRegion line b).1 < (f.cellRegion line b).2 → ∃ i j c d,
        (f.cellRegion line b).1 = f.lines.start line + i ∧
          (f.cellRegion line b).2 = f.lines.start line + j + 1 ∧
          (f.lines.line line)[i]? = some c ∧ Text.isIndent c = false ∧
          (f.lines.line line)[j]? = some d ∧ Text.isIndent d = false) := by
  have size : (Text.slice (f.lines.line line) b.1 b.2).length = b.2 - b.1 := by
    rw [Text.length_slice]
    omega
  have at_ {i : Nat} (inside : i < b.2 - b.1) :
      (Text.slice (f.lines.line line) b.1 b.2)[i]? = (f.lines.line line)[b.1 + i]? :=
    Text.getElem?_slice _ (by omega)
  unfold cellRegion
  dsimp only
  generalize Text.slice (f.lines.line line) b.1 b.2 = cell at size at_
  have leadLe := (List.dropWhile_sublist Text.isBlank (l := cell)).length_le
  have trailLe := Text.length_dropEndWhile_le Text.isBlank cell
  unfold Text.trimStart Text.trimEnd
  refine ⟨by omega, by omega, fun filled => ?_⟩
  have room : cell.length - (cell.dropWhile Text.isBlank).length <
      (Text.dropEndWhile Text.isBlank cell).length := by
    omega
  obtain ⟨c, begins, solid⟩ := Text.exists_solid_start (Nat.lt_of_lt_of_le room trailLe)
  obtain ⟨d, ends, solid'⟩ := Text.exists_solid_end (Nat.lt_of_le_of_lt (Nat.zero_le _) room)
  rw [at_ (by omega)] at begins ends
  exact ⟨_, _, c, d, Nat.add_assoc _ _ _, by omega, begins, Text.isIndent_of_not_isBlank solid,
    ends, Text.isIndent_of_not_isBlank solid'⟩

theorem locateCells_inOrder (f : Fragment) (line : Nat) :
    (f.locateCells line).Pairwise (fun a b => a.2 ≤ b.1) := by
  obtain ⟨kept, among, cells⟩ := f.exists_cells line
  obtain ⟨inOrder, -⟩ := cellBounds_inOrder (Nat.le_refl 0) false (f.lines.line line)
  rw [cells, List.pairwise_map]
  refine ((inOrder.sublist among).imp_of_mem ?_)
  intro a b isFirst isSecond before
  have boundsA := cellBounds_within (Nat.le_refl 0) a (among.subset isFirst)
  have boundsB := cellBounds_within (Nat.le_refl 0) b (among.subset isSecond)
  have inLineA : a.2 ≤ (f.lines.line line).length := by omega
  have inLineB : b.2 ≤ (f.lines.line line).length := by omega
  have regionA := cellRegion_bounds boundsA.1 inLineA
  have regionB := cellRegion_bounds boundsB.1 inLineB
  omega

theorem Within.locateCells_holds (within : f.Within) {lines : LineRange}
    (filled : lines.first < lines.last) {region : Region}
    (member : region ∈ f.locateCells lines.first) (content : region.1 < region.2) :
    f.Holds lines region := by
  obtain ⟨kept, among, cells⟩ := f.exists_cells lines.first
  rw [cells] at member
  obtain ⟨b, isKept, rfl⟩ := List.mem_map.mp member
  have bounds := cellBounds_within (Nat.le_refl 0) b (among.subset isKept)
  have inLine : b.2 ≤ (f.lines.line lines.first).length := by omega
  obtain ⟨-, -, solid⟩ := cellRegion_bounds bounds.1 inLine
  obtain ⟨i, j, c, d, starts, stops, begins, solidStart, ends, solidEnd⟩ := solid content
  obtain ⟨after, before⟩ :=
    within.ordered.solid_in_extent filled begins solidStart ends solidEnd
  exact ⟨starts ▸ after, Nat.le_of_lt content, stops ▸ before⟩

/-! ### Labels -/

/-- A label starts with a bracket of its line and goes on to the last closing one. -/
theorem exists_label {line : Nat} {region : Region} (found : f.locateLabel? line = some region) :
    ∃ i n, 0 < n ∧ region = (f.lines.start line + i, f.lines.start line + i + n + 2) ∧
      (f.lines.line line)[i]? = some '[' ∧ (f.lines.line line)[i + n + 1]? = some ']' := by
  unfold locateLabel? at found
  dsimp only at found
  generalize f.lines.line line = text at found ⊢
  generalize f.lines.start line = base at found ⊢
  generalize Text.countWhile Text.isIndent text + _ + _ = offset at found
  split at found
  · rename_i c rest named
    split at found
    · generalize 1 + Text.countWhile _ rest = name at found
      split at found
      · rename_i body opened
        split at found
        · cases found
        · rename_i something
          rw [Bool.or_eq_true, not_or, List.isEmpty_iff, ← List.length_eq_zero_iff] at something
          have at_ (k : Nat) : text[offset + name + k]? = ('[' :: body)[k]? := by
            rw [← List.getElem?_drop, opened]
          have closing := List.head?_dropWhile_not (· != ']') body.reverse
          have parts := List.takeWhile_append_dropWhile (p := (· != ']')) (l := body.reverse)
          cases left : body.reverse.dropWhile (· != ']') with
          | nil =>
              simp [left] at something
          | cons d inner =>
              rw [left] at closing parts something found
              have bracket : d = ']' := by simpa using closing
              have behind : body[inner.length]? = some ']' := by
                have reversed := congrArg List.reverse parts
                rw [List.reverse_reverse, List.reverse_append, List.reverse_cons,
                  List.append_assoc] at reversed
                rw [← reversed, ← List.length_reverse,
                  List.getElem?_append_right (Nat.le_refl _), Nat.sub_self, bracket]
                rfl
              cases found
              refine ⟨offset + name, inner.length, Nat.pos_of_ne_zero something.1, ?_, at_ 0, ?_⟩
              · rw [Nat.add_assoc base offset name]
                rfl
              · rw [Nat.add_assoc, at_, List.getElem?_cons_succ, behind]
      · cases found
    · cases found
  · cases found

/-- The label of a directive stands in its first line, and between its brackets there is
something. -/
theorem Within.locateLabel?_holds (within : f.Within) {lines : LineRange}
    (filled : lines.first < lines.last) {region : Region}
    (found : f.locateLabel? lines.first = some region) :
    f.Holds lines region ∧ region.1 + 1 ≤ region.2 - 1 ∧
      region.2 ≤ f.lines.stop lines.first := by
  obtain ⟨i, n, positive, rfl, begins, ends⟩ := exists_label found
  obtain ⟨after, before⟩ := within.ordered.solid_in_extent filled begins rfl ends rfl
  have inLine := within.ordered.start_add_length_le_stop lines.first
  have inside := (List.getElem?_eq_some_iff.mp ends).1
  refine ⟨⟨after, ?_, ?_⟩, ?_, ?_⟩ <;> dsimp only <;> omega

end Fragment

end Document

end MdxLocalization
