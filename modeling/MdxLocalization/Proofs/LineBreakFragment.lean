import MdxLocalization.Markdown.Reading
import MdxLocalization.Proofs.FragmentNesting
import MdxLocalization.Proofs.LineBreakText
import MdxLocalization.Proofs.Weaving

/-!
# Fragments with the other kind of line breaks

A fragment of a text and the same fragment of the text with carriage returns have the same lines,
and the lines stand at moved offsets. So all that is located by its place in a line is found at the
moved place. The one thing that is not is the content of a paragraph whose last line of content is
longer than the line in which it is found, since the offset at which it stops then depends on how
long the break behind that line is.
-/

namespace MdxLocalization

/-! ### Lines -/

/-- The bounds of the lines of a text `w`, from the rest `t` of it on, move with the text. -/
theorem lineBounds_addReturns {w p t : Text} (parts : w = p ++ t) (clean : '\r' ∉ t) (start : Nat) :
    lineBounds (Text.moved w start) (Text.moved w p.length) (Text.addReturns t) =
      (lineBounds start p.length t).map fun b => (Text.moved w b.1, Text.moved w b.2) := by
  induction t generalizing p start with
  | nil =>
      rfl
  | cons c t hypothesis =>
      have rest := hypothesis (p := p ++ [c]) (by rw [parts, List.append_assoc]; rfl)
        (List.not_mem_of_not_mem_cons clean)
      have noReturn : c ≠ '\r' := (List.ne_of_not_mem_cons clean).symm
      have after : Text.moved w (p.length + 1) =
          Text.moved w p.length + Text.moved (c :: t) 1 := by
        rw [Text.moved_add, parts, List.drop_left]
      rw [List.length_append, List.length_singleton] at rest
      by_cases isBreak : c = '\n'
      · subst isBreak
        rw [Text.moved_break_succ, Text.moved_zero] at after
        rw [Text.addReturns_break, lineBounds, lineBounds.eq_3 _ _ _ _ (by simp), if_pos (by rfl),
          List.map_cons, ← rest, after]
      · rw [Text.moved_cons_succ isBreak, Text.moved_zero] at after
        have inLine : (c = '\r' || c = '\n') = false := by
          simp [noReturn, isBreak]
        have single : ∀ rest : List Char, c = '\r' → t = '\n' :: rest → False :=
          fun _ same => absurd same noReturn
        have single' : ∀ rest : List Char, c = '\r' → Text.addReturns t = '\n' :: rest → False :=
          fun _ same => absurd same noReturn
        rw [Text.addReturns_cons isBreak, lineBounds.eq_3 _ _ _ _ single',
          lineBounds.eq_3 _ _ _ _ single]
        simp only [inLine, Bool.false_eq_true, if_false]
        rw [← rest, after]

/-- A line has no break in it. -/
theorem not_mem_line {w p t : Text} (parts : w = p ++ t) (clean : '\r' ∉ t) {start : Nat}
    (begun : start ≤ p.length) (noBreak : '\n' ∉ Text.slice w start p.length) :
    ∀ b ∈ lineBounds start p.length t, '\n' ∉ Text.slice w b.1 b.2 := by
  induction t generalizing p start with
  | nil =>
      rw [lineBounds, List.forall_mem_singleton]
      exact noBreak
  | cons c t hypothesis =>
      have noReturn : c ≠ '\r' := (List.ne_of_not_mem_cons clean).symm
      have further : w = (p ++ [c]) ++ t := by
        rw [parts, List.append_assoc]
        rfl
      have rest := @hypothesis _ further (List.not_mem_of_not_mem_cons clean)
      simp only [List.length_append, List.length_singleton] at rest
      have single : ∀ rest : List Char, c = '\r' → t = '\n' :: rest → False :=
        fun _ same => absurd same noReturn
      by_cases isBreak : c = '\n'
      · subst isBreak
        rw [lineBounds.eq_3 _ _ _ _ single, if_pos (by rfl), List.forall_mem_cons]
        refine ⟨noBreak, rest (Nat.le_refl _) ?_⟩
        simp [Text.slice]
      · have inLine : ¬(c = '\r' || c = '\n') = true := by
          simp [noReturn, isBreak]
        rw [lineBounds.eq_3 _ _ _ _ single, if_neg inLine]
        refine rest (Nat.le_succ_of_le begun) ?_
        have here : Text.slice w p.length (p.length + 1) = [c] := by
          rw [Text.slice, parts, List.drop_left, Nat.add_sub_cancel_left]
          rfl
        rw [← Text.slice_append_slice w begun (Nat.le_succ _), here, List.mem_append,
          List.mem_singleton]
        rintro (before | same)
        · exact noBreak before
        · exact isBreak same.symm

namespace SourceLines

variable {t : Text}

theorem bounds_addReturns (clean : '\r' ∉ t) (base base' : Nat) :
    (ofText (Text.addReturns t) base').bounds =
      (ofText t base).bounds.map fun b => (Text.moved t b.1, Text.moved t b.2) :=
  lineBounds_addReturns (p := []) rfl clean 0

theorem line_addReturns (clean : '\r' ∉ t) (base base' i : Nat) :
    (ofText (Text.addReturns t) base').line i = (ofText t base).line i := by
  have noBreak := not_mem_line (p := []) rfl clean (Nat.le_refl 0) (by simp [Text.slice])
  unfold line
  rw [bounds_addReturns clean base, List.getElem?_map]
  cases found : (ofText t base).bounds[i]? with
  | none =>
      rfl
  | some b =>
      change Text.slice (Text.addReturns t) (Text.moved t b.1) (Text.moved t b.2) = _
      rw [Text.slice_addReturns, Text.addReturns_eq_self]
      · rfl
      · exact noBreak b (List.mem_of_getElem? found)

/-- Where a position of a line comes to lie. -/
theorem start_addReturns (clean : '\r' ∉ t) (base base' i : Nat) {k : Nat}
    (inLine : k ≤ ((ofText t base).line i).length) :
    ∃ offset, (ofText t base).start i + k = base + offset ∧ offset ≤ t.length ∧
      (ofText (Text.addReturns t) base').start i + k = base' + Text.moved t offset := by
  cases found : (ofText t base).bounds[i]? with
  | none =>
      have moved : (ofText (Text.addReturns t) base').bounds[i]? = none := by
        rw [bounds_addReturns clean base, List.getElem?_map, found]
        rfl
      obtain ⟨starts, -, empty⟩ := start_of_absent found
      obtain ⟨starts', -, -⟩ := start_of_absent moved
      rw [empty, List.length_nil] at inLine
      refine ⟨t.length, ?_, Nat.le_refl _, ?_⟩
      · rw [starts, Nat.le_zero.mp inLine]
        rfl
      · rw [starts', Nat.le_zero.mp inLine, Text.moved_length]
        rfl
  | some b =>
      have moved : (ofText (Text.addReturns t) base').bounds[i]? =
          some (Text.moved t b.1, Text.moved t b.2) := by
        rw [bounds_addReturns clean base, List.getElem?_map, found]
        rfl
      have listed : b ∈ lineBounds 0 0 t := List.mem_of_getElem? found
      have within := lineBounds_within t (Nat.le_refl 0) b listed
      have noBreak := not_mem_line (p := []) rfl clean (Nat.le_refl 0) (by simp [Text.slice]) b
        listed
      have content : (ofText t base).line i = Text.slice t b.1 b.2 := by
        unfold line
        rw [found]
        rfl
      rw [content, Text.length_slice] at inLine
      refine ⟨b.1 + k, ?_, by omega, ?_⟩
      · rw [(start_of_bounds found).1, Nat.add_assoc]
        rfl
      · rw [(start_of_bounds moved).1, Nat.add_assoc, Text.moved_add_of_not_mem]
        · rfl
        · intro member
          refine noBreak ((List.take_subset_take_left _ ?_) member)
          omega

theorem stop_addReturns (clean : '\r' ∉ t) (base base' i : Nat) :
    ∃ offset, (ofText t base).stop i = base + offset ∧ offset ≤ t.length ∧
      (ofText (Text.addReturns t) base').stop i = base' + Text.moved t offset := by
  cases found : (ofText t base).bounds[i]? with
  | none =>
      have moved : (ofText (Text.addReturns t) base').bounds[i]? = none := by
        rw [bounds_addReturns clean base, List.getElem?_map, found]
        rfl
      refine ⟨t.length, (start_of_absent found).2.1, Nat.le_refl _, ?_⟩
      rw [(start_of_absent moved).2.1, Text.moved_length]
      rfl
  | some b =>
      have moved : (ofText (Text.addReturns t) base').bounds[i]? =
          some (Text.moved t b.1, Text.moved t b.2) := by
        rw [bounds_addReturns clean base, List.getElem?_map, found]
        rfl
      have within := lineBounds_within t (Nat.le_refl 0) b (List.mem_of_getElem? found)
      exact ⟨b.2, (start_of_bounds found).2, by omega, (start_of_bounds moved).2⟩

end SourceLines

namespace Document

open Markdown (LineRange)

/-- A region of a text, and where it comes to lie when carriage returns are added to the text. -/
def Region.moved (t : Text) (region : Region) : Region :=
  (Text.moved t region.1, Text.moved t region.2)

namespace Fragment

/-- A fragment, and the same fragment of its source with carriage returns added. -/
structure Alike (f g : Fragment) : Prop where
  clean : '\r' ∉ f.source
  source : g.source = Text.addReturns f.source
  whole : g.whole = f.whole
  size : g.lines.size = f.lines.size
  line : ∀ i, g.lines.line i = f.lines.line i
  start : ∀ i k, k ≤ (f.lines.line i).length →
    g.lines.start i + k = Text.moved f.source (f.lines.start i + k)
  stop : ∀ i, g.lines.stop i = Text.moved f.source (f.lines.stop i)
  blocks : Markdown.blocks g.text = Markdown.blocks f.text

theorem between_alike {source : Text} (clean : '\r' ∉ source) (start stop : Nat) (whole : Bool) :
    Alike (between source start stop whole)
      (between (Text.addReturns source) (Text.moved source start) (Text.moved source stop)
        whole) := by
  have sliceClean := Text.not_mem_slice clean start stop
  constructor
  case clean => exact clean
  case source => rfl
  case whole => rfl
  all_goals
    unfold between
    rw [Text.slice_addReturns]
  case size =>
    unfold SourceLines.size
    rw [SourceLines.bounds_addReturns sliceClean start, List.length_map]
  case line =>
    exact SourceLines.line_addReturns sliceClean start _
  case start =>
    intro i k inLine
    obtain ⟨offset, here, inside, there⟩ :=
      SourceLines.start_addReturns sliceClean start (Text.moved source start) i inLine
    dsimp only
    rw [here, there, Text.moved_add_slice inside]
  case stop =>
    intro i
    obtain ⟨offset, here, inside, there⟩ :=
      SourceLines.stop_addReturns sliceClean start (Text.moved source start) i
    dsimp only
    rw [here, there, Text.moved_add_slice inside]
  case blocks =>
    change Markdown.blocks (Text.addReturns (Text.slice source start stop)) =
      Markdown.blocks (Text.slice source start stop)
    unfold Markdown.blocks Markdown.normalizeSource
    rw [Text.normalizeBreaks_addReturns sliceClean, Text.normalizeBreaks_eq_self sliceClean]

variable {f g : Fragment}

/-! ### Lines -/

theorem Alike.start_zero (alike : Alike f g) (i : Nat) :
    g.lines.start i = Text.moved f.source (f.lines.start i) :=
  alike.start i 0 (Nat.zero_le _)

theorem Alike.trimRange (alike : Alike f g) (first last : Nat) :
    g.lines.trimRange first last = f.lines.trimRange first last := by
  induction last with
  | zero =>
      rfl
  | succ last hypothesis =>
      rw [SourceLines.trimRange, SourceLines.trimRange, hypothesis, SourceLines.isBlank, alike.line]
      rfl

theorem Alike.extent (alike : Alike f g) (first last : Nat) :
    g.lines.extent first last = Region.moved f.source (f.lines.extent first last) := by
  unfold SourceLines.extent Region.moved
  dsimp only
  rw [alike.trimRange, alike.line, alike.line, Text.moved_max,
    alike.start _ _ (Text.countWhile_le_length _ _),
    alike.start _ _ (Text.length_dropEndWhile_le _ _)]

theorem Alike.spanOfLines (alike : Alike f g) (lines : LineRange) :
    g.spanOfLines lines = (f.spanOfLines lines).moved f.source := by
  unfold Fragment.spanOfLines
  rw [alike.extent]
  exact (Span.moved_ofNats _ _ _).symm

theorem Alike.directiveSpan (alike : Alike f g) (lines : LineRange) :
    g.directiveSpan lines = (f.directiveSpan lines).moved f.source := by
  unfold Fragment.directiveSpan
  rw [alike.size, alike.spanOfLines]

/-! ### Paragraphs -/

theorem Alike.contentOffset (alike : Alike f g) (line : Nat) (content : Text) (isLast : Bool) :
    ∃ k, k ≤ (f.lines.line line).length ∧
      f.contentOffset line content isLast = f.lines.start line + k ∧
      g.contentOffset line content isLast = g.lines.start line + k := by
  have shorter : ∀ {t : Text}, t = (if isLast then Text.dropEndWhile Text.isIndent
      (f.lines.line line) else f.lines.line line) → t.length ≤ (f.lines.line line).length := by
    rintro t rfl
    split
    · exact Text.length_dropEndWhile_le _ _
    · exact Nat.le_refl _
  unfold Fragment.contentOffset
  dsimp only
  rw [alike.line]
  generalize same : (if isLast then _ else _) = t at *
  have bound := shorter rfl
  split
  · exact ⟨_, Nat.le_trans (Nat.sub_le _ _) bound, rfl, rfl⟩
  · split
    · rename_i n found
      split at found
      · cases found
      · have occurs := Text.find?_add_length_le found
        exact ⟨n, by omega, rfl, rfl⟩
    · exact ⟨_, Nat.le_trans (Nat.sub_le _ _) bound, rfl, rfl⟩

/-! ### Headings, cells and labels -/

theorem Alike.region (alike : Alike f g) (line : Nat) {a b : Nat}
    (inLineA : a ≤ (f.lines.line line).length) (inLineB : b ≤ (f.lines.line line).length) :
    (g.lines.start line + a, g.lines.start line + b) =
      Region.moved f.source (f.lines.start line + a, f.lines.start line + b) :=
  Prod.ext (alike.start line a inLineA) (alike.start line b inLineB)

theorem Alike.locateHeading? (alike : Alike f g) (line : Nat) (content : Text) :
    g.locateHeading? line content =
      (f.locateHeading? line content).map (Region.moved f.source) := by
  have indent := Text.countWhile_le_length Text.isIndent (f.lines.line line)
  have signs := Text.countWhile_le_length (· == '#')
    ((f.lines.line line).drop (Text.countWhile Text.isIndent (f.lines.line line)))
  rw [List.length_drop] at signs
  unfold Fragment.locateHeading?
  dsimp only
  rw [alike.line]
  generalize marked : ite (min 6 _ = 0) 0 _ = marker
  have markerLe : marker ≤ (f.lines.line line).length := by
    rw [← marked]
    split <;> omega
  split
  · rfl
  · cases occurs : Text.find? content ((f.lines.line line).drop marker) with
    | none =>
        rfl
    | some n =>
        have bound := Text.find?_add_length_le occurs
        rw [List.length_drop] at bound
        have moved := alike.region line (a := marker + n)
          (b := marker + n + content.length) (by omega) (by omega)
        simp only [Option.map_some, Option.some.injEq, Nat.add_assoc] at moved ⊢
        exact moved

/-- The bounds of the cells of a row in the text of its line. -/
def cellsOf (text : Text) : List Region :=
  let isBlank := fun (bounds : Region) => Text.isBlankText (Text.slice text bounds.1 bounds.2)
  let bounds := cellBounds 0 0 false text
  let bounds := if bounds.head?.any isBlank then bounds.drop 1 else bounds
  if bounds.getLast?.any isBlank then bounds.dropLast else bounds

theorem locateCells_eq (f : Fragment) (line : Nat) :
    f.locateCells line = (cellsOf (f.lines.line line)).map (f.cellRegion line) := rfl

theorem cellsOf_subset (text : Text) : cellsOf text ⊆ cellBounds 0 0 false text := by
  unfold cellsOf
  dsimp only
  split <;> split
  · exact fun b kept => List.mem_of_mem_drop (List.dropLast_subset _ kept)
  · exact fun b kept => List.mem_of_mem_drop kept
  · exact fun b kept => List.dropLast_subset _ kept
  · exact fun b kept => kept

theorem Alike.cellRegion (alike : Alike f g) {line : Nat} {b : Region}
    (inLine : b.1 ≤ b.2 ∧ b.2 ≤ (f.lines.line line).length) :
    g.cellRegion line b = Region.moved f.source (f.cellRegion line b) := by
  have size := Text.length_slice (f.lines.line line) b.1 b.2
  unfold Fragment.cellRegion
  dsimp only
  rw [alike.line]
  generalize Text.slice (f.lines.line line) b.1 b.2 = cell at size
  rw [Nat.add_assoc, Nat.add_assoc]
  exact alike.region _ (by omega) (by omega)

theorem Alike.locateCells (alike : Alike f g) (line : Nat) :
    g.locateCells line = (f.locateCells line).map (Region.moved f.source) := by
  rw [locateCells_eq, locateCells_eq, alike.line, List.map_map]
  refine List.map_congr_left fun b kept => alike.cellRegion ?_
  have bounds := cellBounds_within (Nat.le_refl 0) b (cellsOf_subset _ kept)
  exact ⟨bounds.1, by omega⟩

theorem locateLabel?_of_line {line : Nat} (same : g.lines.line line = f.lines.line line) :
    g.locateLabel? line = (f.locateLabel? line).map fun region =>
      (g.lines.start line + (region.1 - f.lines.start line),
        g.lines.start line + (region.2 - f.lines.start line)) := by
  unfold Fragment.locateLabel?
  dsimp only
  rw [same]
  split
  · split
    · split
      · split
        · rfl
        · simp only [Option.map_some, Option.some.injEq, Prod.mk.injEq]
          omega
      · rfl
    · rfl
  · rfl

theorem Alike.locateLabel? (alike : Alike f g) (line : Nat) :
    g.locateLabel? line = (f.locateLabel? line).map (Region.moved f.source) := by
  rw [locateLabel?_of_line (alike.line line)]
  cases found : f.locateLabel? line with
  | none =>
      rfl
  | some region =>
      obtain ⟨i, n, -, rfl, -, closes⟩ := exists_label found
      have inLine := (List.getElem?_eq_some_iff.mp closes).1
      have moved := alike.region line (a := i) (b := i + n + 2) (by omega) (by omega)
      simp only [Option.map_some, Option.some.injEq, Nat.add_assoc, Nat.add_sub_cancel_left]
        at moved ⊢
      exact moved

/-- The brackets of a label stand in its line. -/
theorem Alike.label_inside (alike : Alike f g) {line : Nat} {region : Region}
    (found : f.locateLabel? line = some region) :
    region.1 + 1 < region.2 - 1 ∧
      Text.moved f.source (region.1 + 1) = Text.moved f.source region.1 + 1 ∧
      Text.moved f.source (region.2 - 1) = Text.moved f.source region.2 - 1 := by
  obtain ⟨i, n, filled, rfl, opens, closes⟩ := exists_label found
  have inLine := (List.getElem?_eq_some_iff.mp closes).1
  have first := alike.start line i (by omega)
  have second := alike.start line (i + 1) (by omega)
  have third := alike.start line (i + n + 1) (by omega)
  have fourth := alike.start line (i + n + 2) (by omega)
  simp only [Nat.add_assoc] at *
  refine ⟨by omega, by omega, ?_⟩
  have here : f.lines.start line + (i + (n + 2)) - 1 = f.lines.start line + (i + (n + 1)) := by
    omega
  rw [here]
  omega

end Fragment

end Document

end MdxLocalization
