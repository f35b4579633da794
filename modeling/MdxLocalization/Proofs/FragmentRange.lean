import MdxLocalization.Document.Fragment
import MdxLocalization.Proofs.InlineRange

/-!
# Located content in range

What is located in a fragment stands in its lines, and they stand in the source. This covers ranges
of lines, the content of headings with number signs, cells and labels. The content of a paragraph is
not covered: where it stops is reckoned from the length of a line that has been trimmed and rid of
tabs, which need not be the length that the line has in the source.
-/

namespace MdxLocalization

/-- An occurrence of a piece stands in the text. -/
theorem Text.find?_add_length_le {piece t : Text} {n : Nat} (found : find? piece t = some n) :
    n + piece.length ≤ t.length := by
  induction t generalizing n with
  | nil =>
      rw [find?] at found
      split at found
      · rename_i empty
        cases found
        rw [List.isEmpty_iff.mp empty]
        exact Nat.le_refl 0
      · cases found
  | cons c rest hypothesis =>
      rw [find?] at found
      split at found
      · rename_i starts
        cases found
        rw [Nat.zero_add]
        exact (List.isPrefixOf_iff_prefix.mp starts).length_le
      · obtain ⟨before, later, same⟩ := Option.map_eq_some_iff.mp found
        have bound := hypothesis later
        rw [List.length_cons]
        omega

namespace Document

open Markdown (LineRange)

namespace Fragment

/-- The lines of a fragment are in order and stand in its source. -/
structure Within (f : Fragment) : Prop where
  ordered : f.lines.Ordered
  inSource : f.lines.base + f.lines.text.length ≤ f.source.length

theorem between_within {source : Text} {start : Nat} (inside : start ≤ source.length)
    (stop : Nat) (whole : Bool) : (between source start stop whole).Within where
  ordered := SourceLines.ofText_ordered _ start
  inSource := by
    change start + (Text.slice source start stop).length ≤ source.length
    rw [Text.length_slice]
    omega

variable {f : Fragment}

theorem Within.line_le (within : f.Within) (line : Nat) :
    f.lines.start line + (f.lines.line line).length ≤ f.source.length :=
  Nat.le_trans (within.ordered.start_add_length_le line) within.inSource

/-! ### Lines -/

theorem Within.spanOfLines_inside (within : f.Within) (lines : LineRange) :
    (f.spanOfLines lines).Inside f.source.length := by
  have bounds := within.ordered.extent_within lines.first lines.last
  exact Span.ofNats_inside bounds.2.1 (Nat.le_trans bounds.2.2 within.inSource)

theorem Within.directiveSpan_inside (within : f.Within) (lines : LineRange) :
    (f.directiveSpan lines).Inside f.source.length :=
  within.spanOfLines_inside _

/-! ### Headings -/

/-- The content of a heading stands in its line. -/
theorem Within.locateHeading?_le (within : f.Within) {line : Nat} {content : Text}
    {region : Region} (found : f.locateHeading? line content = some region) :
    region.2 ≤ f.source.length := by
  have inLine := within.line_le line
  have indent := Text.countWhile_le_length Text.isIndent (f.lines.line line)
  have signs := Text.countWhile_le_length (· == '#')
    ((f.lines.line line).drop (Text.countWhile Text.isIndent (f.lines.line line)))
  rw [List.length_drop] at signs
  unfold locateHeading? at found
  dsimp only at found
  generalize marked : ite (min 6 _ = 0) 0 _ = marker at found
  have markerLe : marker ≤ (f.lines.line line).length := by
    rw [← marked]
    split <;> omega
  split at found
  · cases found
  · obtain ⟨n, occurs, same⟩ := Option.map_eq_some_iff.mp found
    have bound := Text.find?_add_length_le occurs
    rw [List.length_drop] at bound
    subst same
    dsimp only
    omega

/-! ### Cells -/

theorem cellBounds_nil (start position : Nat) (escaped : Bool) :
    cellBounds start position escaped [] = [(start, position)] := rfl

theorem cellBounds_cons (start position : Nat) (escaped : Bool) (c : Char) (rest : Text) :
    cellBounds start position escaped (c :: rest) =
      if c = '|' && !escaped then
        (start, position) :: cellBounds (position + 1) (position + 1) false rest
      else cellBounds start (position + 1) (c == '\\' && !escaped) rest := rfl

/-- The bounds of cells are in order and stand in their line. -/
theorem cellBounds_within {start position : Nat} {escaped : Bool} {t : Text}
    (begun : start ≤ position) :
    ∀ b ∈ cellBounds start position escaped t, b.1 ≤ b.2 ∧ b.2 ≤ position + t.length := by
  induction t generalizing start position escaped with
  | nil =>
      intro b member
      rw [cellBounds_nil, List.mem_singleton] at member
      subst member
      exact ⟨begun, Nat.le_refl _⟩
  | cons c rest hypothesis =>
      intro b member
      rw [List.length_cons]
      rw [cellBounds_cons] at member
      split at member
      · rcases List.mem_cons.mp member with first | later
        · subst first
          exact ⟨begun, Nat.le_add_right _ _⟩
        · have bounds := hypothesis (Nat.le_refl _) b later
          omega
      · have bounds := hypothesis (Nat.le_succ_of_le begun) b member
        omega

/-- The content of a cell stands in its line. -/
theorem Within.locateCells_le (within : f.Within) (line : Nat) :
    ∀ region ∈ f.locateCells line, region.2 ≤ f.source.length := by
  intro region member
  have inLine := within.line_le line
  unfold locateCells at member
  dsimp only at member
  obtain ⟨b, kept, same⟩ := List.mem_map.mp member
  have listed : b ∈ cellBounds 0 0 false (f.lines.line line) := by
    split at kept <;> split at kept
    · exact List.mem_of_mem_drop (List.dropLast_subset _ kept)
    · exact List.mem_of_mem_drop kept
    · exact List.dropLast_subset _ kept
    · exact kept
  have bounds := cellBounds_within (Nat.le_refl 0) b listed
  have size := Text.length_slice (f.lines.line line) b.1 b.2
  subst same
  dsimp only
  omega

/-! ### Labels -/

/-- The label of a directive stands in its line. Its brackets do not count as content. -/
theorem Within.locateLabel?_within (within : f.Within) {line : Nat} {region : Region}
    (found : f.locateLabel? line = some region) :
    region.1 ≤ region.2 ∧ region.2 ≤ f.source.length := by
  have inLine := within.line_le line
  unfold locateLabel? at found
  dsimp only at found
  split at found
  · rename_i c rest named
    split at found
    · split at found
      · rename_i body opened
        have size := congrArg List.length opened
        rw [List.length_drop, List.length_cons] at size
        have kept := (List.dropWhile_sublist (· != ']') (l := body.reverse)).length_le
        rw [List.length_reverse] at kept
        split at found
        · cases found
        · rename_i filled
          rw [Bool.or_eq_true, not_or, List.isEmpty_iff, ← List.length_eq_zero_iff] at filled
          have inner := filled.1
          cases found
          rw [List.length_drop] at inner ⊢
          dsimp only
          omega
      · cases found
    · cases found
  · cases found

/-! ### Paragraphs -/

/-- The content of a line starts in the line. -/
theorem Within.contentOffset_le (within : f.Within) (line : Nat) (content : Text) (isLast : Bool) :
    f.contentOffset line content isLast ≤ f.source.length := by
  have inLine := within.line_le line
  have trimmed := Text.length_dropEndWhile_le Text.isIndent (f.lines.line line)
  unfold contentOffset
  dsimp only
  generalize textEq : (if isLast = true then
    Text.dropEndWhile Text.isIndent (f.lines.line line) else f.lines.line line) = text
  have shorter : text.length ≤ (f.lines.line line).length := by
    rw [← textEq]
    split
    · exact trimmed
    · exact Nat.le_refl _
  split
  · omega
  · split
    · rename_i n occurs
      have found : Text.find? (Text.trim content) text = some n := by
        split at occurs
        · cases occurs
        · exact occurs
      have bound := Text.find?_add_length_le found
      omega
    · omega

/-- The region of a paragraph starts in the source, and its ends are in order. Nothing is said about
where it stops. -/
theorem Within.locateParagraph_starts {ε : Type} {failure : ε → Prop} (within : f.Within)
    (lines : LineRange) (content : Text) :
    Traced.Ends (fun region => ∀ r ∈ region, r.1 ≤ r.2 ∧ r.1 ≤ f.source.length) failure
      (f.locateParagraph lines content : Traced ε (Option Region)) := by
  unfold locateParagraph
  split
  · exact Traced.ends_pure (by simp)
  · dsimp only
    split
    · refine (Traced.ends_log _).bind fun _ _ => Traced.ends_pure ?_
      intro r whole
      cases whole
      have bounds := within.ordered.extent_within lines.first lines.last
      have inSource := within.inSource
      exact ⟨bounds.2.1, by omega⟩
    · apply Traced.ends_pure
      intro r located
      cases located
      exact ⟨Nat.le_max_left _ _, within.contentOffset_le _ _ _⟩

/-- A paragraph stops in the source when its last line of content stands at the end of its line, as
it does unless something in the line has been replaced or dropped. -/
theorem Within.locateParagraph_inside {ε : Type} {failure : ε → Prop} (within : f.Within)
    {lines : LineRange} {content : Text}
    (aligned : (Text.splitOn '\n' content).getLast?.getD [] <:+
      Text.dropEndWhile Text.isIndent (f.lines.line (lines.last - 1))) :
    Traced.Ends (fun region => ∀ r ∈ region, r.2 ≤ f.source.length) failure
      (f.locateParagraph lines content : Traced ε (Option Region)) := by
  unfold locateParagraph
  split
  · exact Traced.ends_pure (by simp)
  · dsimp only
    split
    · refine (Traced.ends_log _).bind fun _ _ => Traced.ends_pure ?_
      intro r whole
      cases whole
      exact Nat.le_trans (within.ordered.extent_within lines.first lines.last).2.2 within.inSource
    · apply Traced.ends_pure
      intro r located
      cases located
      have starts := within.contentOffset_le lines.first
        ((Text.splitOn '\n' content).head?.getD []) ((Text.splitOn '\n' content).length = 1)
      have inLine := within.line_le (lines.last - 1)
      have trimmed := Text.length_dropEndWhile_le Text.isIndent (f.lines.line (lines.last - 1))
      have shorter := aligned.length_le
      have ends : Text.endsWith
          (Text.dropEndWhile Text.isIndent (f.lines.line (lines.last - 1)))
          ((Text.splitOn '\n' content).getLast?.getD []) = true :=
        List.isSuffixOf_iff_suffix.mpr aligned
      refine Nat.max_le.mpr ⟨starts, ?_⟩
      simp only [contentOffset, if_true, ends]
      omega

end Fragment

end Document

end MdxLocalization
