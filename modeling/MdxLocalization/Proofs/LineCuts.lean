import MdxLocalization.Document.Fragment
import MdxLocalization.Proofs.InlineCut
import MdxLocalization.Proofs.LineBreakText
import MdxLocalization.Proofs.TextPieces

/-!
# A text line by line

A text is a line without breaks, or such a line with a break behind it and then a text. What is
recorded of its lines follows this shape: the first line is the part before the break, and the
others are the lines of the text behind it, further back by what stands before them. An induction
along it shows that the lines are the pieces of the text with its breaks normalised. A line that is
not empty stands in the text at the offset recorded for it.
-/

namespace MdxLocalization

/-! ### Lines and breaks -/

namespace Text

/-- A text without line breaks. -/
def OneLine (line : Text) : Prop := '\n' ∉ line ∧ '\r' ∉ line

/-- The characters of one break in front of a text, which does not take up a lone carriage return
by a line feed. -/
inductive IsBreak : Text → Text → Prop where
  | feed (rest : Text) : IsBreak ['\n'] rest
  | both (rest : Text) : IsBreak ['\r', '\n'] rest
  | lone {rest : Text} (ends : rest.head? ≠ some '\n') : IsBreak ['\r'] rest

theorem oneLine_cons {c : Char} {line : Text} (noFeed : c ≠ '\n') (noReturn : c ≠ '\r')
    (rest : OneLine line) : OneLine (c :: line) :=
  ⟨List.not_mem_cons_of_ne_of_not_mem noFeed.symm rest.1,
    List.not_mem_cons_of_ne_of_not_mem noReturn.symm rest.2⟩

/-- A text is one line, or a line and its break stand in front of another text. -/
theorem exists_lines (t : Text) :
    OneLine t ∨
      ∃ line mark rest, t = line ++ (mark ++ rest) ∧ OneLine line ∧ IsBreak mark rest := by
  induction t with
  | nil =>
      exact Or.inl ⟨List.not_mem_nil, List.not_mem_nil⟩
  | cons c t hypothesis =>
      by_cases isFeed : c = '\n'
      · subst isFeed
        exact Or.inr ⟨[], ['\n'], t, rfl, ⟨List.not_mem_nil, List.not_mem_nil⟩, .feed t⟩
      by_cases isReturn : c = '\r'
      · subst isReturn
        refine Or.inr ?_
        by_cases further : t.head? = some '\n'
        · obtain ⟨rest, rfl⟩ := List.head?_eq_some_iff.mp further
          exact ⟨[], ['\r', '\n'], rest, rfl, ⟨List.not_mem_nil, List.not_mem_nil⟩, .both rest⟩
        · exact ⟨[], ['\r'], t, rfl, ⟨List.not_mem_nil, List.not_mem_nil⟩, .lone further⟩
      rcases hypothesis with single | ⟨line, mark, rest, rfl, single, isBreak⟩
      · exact Or.inl (oneLine_cons isFeed isReturn single)
      · exact Or.inr ⟨c :: line, mark, rest, rfl, oneLine_cons isFeed isReturn single, isBreak⟩

/-- What holds of one line, and of a line in front of any text of which it holds, holds of every
text. -/
theorem lines_induction {motive : Text → Prop} (last : ∀ line, OneLine line → motive line)
    (broken : ∀ line mark rest, OneLine line → IsBreak mark rest → motive rest →
      motive (line ++ (mark ++ rest))) (t : Text) : motive t := by
  induction size : t.length using Nat.strongRecOn generalizing t with
  | ind n hypothesis =>
      subst size
      rcases exists_lines t with single | ⟨line, mark, rest, rfl, single, isBreak⟩
      · exact last t single
      · refine broken line mark rest single isBreak (hypothesis rest.length ?_ rest rfl)
        rw [List.length_append, List.length_append]
        cases isBreak <;> simp <;> omega

end Text

open Text (OneLine IsBreak splitOn)

variable {line mark rest t : Text}

/-! ### The lines of a text -/

theorem lineBounds_cons {c : Char} (noFeed : c ≠ '\n') (noReturn : c ≠ '\r') (t : Text)
    (start position : Nat) :
    lineBounds start position (c :: t) = lineBounds start (position + 1) t := by
  rw [lineBounds.eq_3 _ _ _ _ (fun _ same => absurd same noReturn),
    if_neg (by simp [noFeed, noReturn])]

theorem lineBounds_append (single : OneLine line) (t : Text) (start position : Nat) :
    lineBounds start position (line ++ t) = lineBounds start (position + line.length) t := by
  induction line generalizing position with
  | nil =>
      rfl
  | cons c line hypothesis =>
      have others : OneLine line :=
        ⟨List.not_mem_of_not_mem_cons single.1, List.not_mem_of_not_mem_cons single.2⟩
      rw [List.cons_append, lineBounds_cons (List.ne_of_not_mem_cons single.1).symm
        (List.ne_of_not_mem_cons single.2).symm, hypothesis others, List.length_cons,
        Nat.add_assoc, Nat.add_comm 1]

theorem lineBounds_break (isBreak : IsBreak mark rest) (start position : Nat) :
    lineBounds start position (mark ++ rest) =
      (start, position) :: lineBounds (position + mark.length) (position + mark.length) rest := by
  cases isBreak with
  | feed =>
      exact lineBounds.eq_3 _ _ _ _ (by simp)
  | both =>
      rfl
  | lone ends =>
      refine lineBounds.eq_3 _ _ _ _ fun others _ same => ends ?_
      exact congrArg List.head? same

theorem lineBounds_add (t : Text) (start position k : Nat) :
    lineBounds (k + start) (k + position) t =
      (lineBounds start position t).map fun b => (k + b.1, k + b.2) := by
  induction start, position, t using lineBounds.induct with
  | case1 start position =>
      rfl
  | case2 start position rest hypothesis =>
      rw [lineBounds, lineBounds, List.map_cons, ← hypothesis]
      rfl
  | case3 start position c rest single isBreak hypothesis =>
      rw [lineBounds.eq_3 _ _ _ _ single, lineBounds.eq_3 _ _ _ _ single, if_pos isBreak,
        if_pos isBreak, List.map_cons, ← hypothesis]
      rfl
  | case4 start position c rest single noBreak hypothesis =>
      rw [lineBounds.eq_3 _ _ _ _ single, lineBounds.eq_3 _ _ _ _ single, if_neg noBreak,
        if_neg noBreak, ← hypothesis]
      rfl

namespace SourceLines

theorem bounds_oneLine (single : OneLine line) (base : Nat) :
    (ofText line base).bounds = [(0, line.length)] := by
  have bounds := lineBounds_append single [] 0 0
  rw [List.append_nil, Nat.zero_add] at bounds
  exact bounds

theorem bounds_broken (single : OneLine line) (isBreak : IsBreak mark rest) (base : Nat) :
    (ofText (line ++ (mark ++ rest)) base).bounds = (0, line.length) ::
      (ofText rest base).bounds.map fun b =>
        (line.length + mark.length + b.1, line.length + mark.length + b.2) := by
  have bounds := lineBounds_append single (mark ++ rest) 0 0
  rw [lineBounds_break isBreak, Nat.zero_add] at bounds
  exact bounds.trans (congrArg _ (lineBounds_add rest 0 0 (line.length + mark.length)))

variable {base i : Nat}

theorem line_oneLine (single : OneLine line) (base i : Nat) :
    (ofText line base).line i = if i = 0 then line else [] := by
  rw [SourceLines.line, bounds_oneLine single]
  cases i with
  | zero =>
      exact List.take_of_length_le (Nat.le_of_eq rfl)
  | succ i =>
      rfl

theorem line_zero (single : OneLine line) (isBreak : IsBreak mark rest) :
    (ofText (line ++ (mark ++ rest)) base).line 0 = line := by
  rw [SourceLines.line, bounds_broken single isBreak]
  exact List.take_left

theorem line_succ (single : OneLine line) (isBreak : IsBreak mark rest) :
    (ofText (line ++ (mark ++ rest)) base).line (i + 1) = (ofText rest base).line i := by
  rw [SourceLines.line, SourceLines.line, bounds_broken single isBreak, List.getElem?_cons_succ,
    List.getElem?_map]
  cases (ofText rest base).bounds[i]? with
  | none =>
      rfl
  | some b =>
      change Text.slice (line ++ (mark ++ rest)) _ _ = Text.slice rest b.1 b.2
      rw [Text.slice, Text.slice, Nat.add_sub_add_left, Nat.add_assoc, ← List.drop_drop,
        List.drop_left, ← List.drop_drop, List.drop_left]

theorem start_zero (t : Text) (base : Nat) : (ofText t base).start 0 = base := by
  rcases Text.exists_lines t with single | ⟨line, mark, rest, rfl, single, isBreak⟩
  · rw [start, bounds_oneLine single]
    rfl
  · rw [start, bounds_broken single isBreak]
    rfl

theorem start_succ (single : OneLine line) (isBreak : IsBreak mark rest) :
    (ofText (line ++ (mark ++ rest)) base).start (i + 1) =
      line.length + mark.length + (ofText rest base).start i := by
  rw [start, start, bounds_broken single isBreak, List.getElem?_cons_succ, List.getElem?_map]
  cases (ofText rest base).bounds[i]? with
  | none =>
      change base + (line ++ (mark ++ rest)).length = _ + (base + rest.length)
      rw [List.length_append, List.length_append]
      omega
  | some b =>
      change base + (line.length + mark.length + b.1) = _ + (base + b.1)
      omega

end SourceLines

/-! ### The pieces of a text with normalised breaks -/

namespace Text

theorem normalizeBreaks_append (single : OneLine line) (t : Text) :
    normalizeBreaks (line ++ t) = line ++ normalizeBreaks t := by
  induction line with
  | nil =>
      rfl
  | cons c line hypothesis =>
      have others : OneLine line :=
        ⟨List.not_mem_of_not_mem_cons single.1, List.not_mem_of_not_mem_cons single.2⟩
      rw [List.cons_append, normalizeBreaks_cons (List.ne_of_not_mem_cons single.2).symm,
        hypothesis others, List.cons_append]

theorem normalizeBreaks_break (isBreak : IsBreak mark rest) :
    normalizeBreaks (mark ++ rest) = '\n' :: normalizeBreaks rest := by
  cases isBreak with
  | feed =>
      exact normalizeBreaks_cons (by decide) rest
  | both =>
      rfl
  | lone ends =>
      exact normalizeBreaks.eq_3 rest fun others same => ends (congrArg List.head? same)

theorem splitOn_normalizeBreaks (single : OneLine line) (isBreak : IsBreak mark rest) :
    splitOn '\n' (normalizeBreaks (line ++ (mark ++ rest))) =
      line :: splitOn '\n' (normalizeBreaks rest) := by
  rw [normalizeBreaks_append single, normalizeBreaks_break isBreak, splitOn_append single.1]

end Text

/-- The lines of a text are the pieces of the text with its breaks normalised. -/
theorem SourceLines.line_eq_piece (t : Text) (base i : Nat) :
    (ofText t base).line i = ((splitOn '\n' (Text.normalizeBreaks t))[i]?).getD [] := by
  induction t using Text.lines_induction generalizing i with
  | last line single =>
      rw [line_oneLine single, Text.normalizeBreaks_eq_self single.2,
        Text.splitOn_of_not_mem single.1]
      cases i <;> rfl
  | broken line mark rest single isBreak hypothesis =>
      rw [Text.splitOn_normalizeBreaks single isBreak]
      cases i with
      | zero =>
          exact line_zero single isBreak
      | succ i =>
          rw [line_succ single isBreak, List.getElem?_cons_succ, hypothesis]

/-! ### Lines in their source -/

theorem SourceLines.line_standsAt {t : Text} {base i : Nat} (filled : (ofText t base).line i ≠ []) :
    ∃ offset, (ofText t base).start i = base + offset ∧
      t.StandsAt ((ofText t base).line i) offset := by
  cases shown : (ofText t base).bounds[i]? with
  | none =>
      exact absurd (start_of_absent shown).2.2 filled
  | some b =>
      have content : (ofText t base).line i = Text.slice t b.1 b.2 := by
        simp only [SourceLines.line, shown]
        rfl
      refine ⟨b.1, (start_of_bounds shown).1, content ▸ Text.standsAt_slice ?_⟩
      have bounds := (ofText_ordered t base).within b (List.mem_of_getElem? shown)
      exact Nat.le_trans bounds.1 bounds.2

theorem Document.Fragment.line_standsAt {source : Text} {start stop i : Nat} {whole : Bool}
    (filled : (Fragment.between source start stop whole).lines.line i ≠ []) :
    source.StandsAt ((Fragment.between source start stop whole).lines.line i)
      ((Fragment.between source start stop whole).lines.start i) := by
  obtain ⟨offset, placed, stands⟩ := SourceLines.line_standsAt filled
  change (Fragment.between source start stop whole).lines.start i = _ at placed
  rw [placed]
  exact stands.of_slice filled

end MdxLocalization
