import Mathlib.Data.List.TakeWhile
import MdxLocalization.Document.Parsing
import MdxLocalization.Proofs.BlockOrigins
import MdxLocalization.Proofs.FragmentNesting
import MdxLocalization.Proofs.NodeEquality

/-!
# Headings behind their number signs

The text of a heading with number signs is looked for in its line of the source. The signs are
skipped where nothing but blanks stands before them; behind the marks of block quotes and list items
they are not recognised, and the search begins with the line. It then finds the text of the heading
unless the same characters occur earlier, in the marks or in the signs.
-/

namespace MdxLocalization

/-! ### The first occurrence of a piece -/

namespace Text

variable {piece t : Text} {n : Nat}

theorem not_prefix_of_find? (found : find? piece t = some n) :
    ∀ m < n, ¬ piece <+: t.drop m := by
  induction t generalizing n with
  | nil =>
      rw [find?] at found
      split at found
      · cases found
        simp
      · cases found
  | cons c rest hypothesis =>
      rw [find?] at found
      split at found
      · cases found
        simp
      · rename_i other
        obtain ⟨k, later, rfl⟩ := Option.map_eq_some_iff.mp found
        intro m before
        cases m with
        | zero =>
            exact fun part => other (List.isPrefixOf_iff_prefix.mpr part)
        | succ m =>
            exact hypothesis later m (by omega)

theorem exists_find?_of_occurs (occurs : piece <+: t.drop n) : ∃ m, find? piece t = some m := by
  induction t generalizing n with
  | nil =>
      rw [List.drop_nil, List.prefix_nil] at occurs
      exact ⟨0, by rw [find?, occurs]; rfl⟩
  | cons c rest hypothesis =>
      rw [find?]
      split
      · exact ⟨0, rfl⟩
      · rename_i other
        cases n with
        | zero =>
            exact absurd (List.isPrefixOf_iff_prefix.mpr occurs) other
        | succ n =>
            obtain ⟨m, later⟩ := hypothesis occurs
            exact ⟨m + 1, by rw [later]; rfl⟩

end Text

namespace Markdown

/-- The text behind the number signs has the text of the heading in it, without the closing number
signs and the white space around it. -/
theorem exists_around_content (info : Text) :
    let body := Text.dropEndWhile isSpace info
    let bare := Text.dropEndWhile (· == '#') body
    ∃ lead tail, info =
      lead ++ (trimContent (if (bare.getLast?).any isSpace then bare else body) ++ tail) := by
  intro body bare
  obtain ⟨blanks, behind, -⟩ := Text.exists_dropped isSpace info
  obtain ⟨signs, closing, -⟩ := Text.exists_dropped (· == '#') body
  obtain ⟨inner, kept⟩ :
      ∃ inner, info = (if (bare.getLast?).any isSpace then bare else body) ++ inner := by
    split
    · exact ⟨signs ++ blanks, by rw [← List.append_assoc, closing, behind]⟩
    · exact ⟨blanks, behind.symm⟩
  generalize (if (bare.getLast?).any isSpace then bare else body) = chosen at kept ⊢
  obtain ⟨tail, parts, -⟩ := exists_trimContent chosen
  refine ⟨chosen.takeWhile isContentSpace, tail ++ inner, ?_⟩
  rw [← List.append_assoc _ tail, ← List.append_assoc _ _ inner, ← parts, kept]

/-- The number signs of a heading, and behind them its text with something around it. -/
theorem exists_of_atxHeading? {t content : Text} {depth : Nat}
    (found : atxHeading? t = some (depth, content)) :
    ∃ lead tail, t = List.replicate depth '#' ++ (lead ++ (content ++ tail)) ∧
      Text.countWhile (· == '#') t = depth ∧ 1 ≤ depth ∧ depth ≤ 6 := by
  unfold atxHeading? at found
  dsimp only at found
  split at found
  · rename_i isHeading
    rw [Bool.and_eq_true, Bool.and_eq_true, decide_eq_true_eq, decide_eq_true_eq] at isHeading
    rw [Option.some.injEq, Prod.mk.injEq] at found
    obtain ⟨rfl, rfl⟩ := found
    obtain ⟨lead, tail, info⟩ := exists_around_content (Rule.read '#' t).info
    refine ⟨lead, tail, ?_, rfl, isHeading.1.1, isHeading.1.2⟩
    rw [← info]
    change t = List.replicate (Text.countWhile (· == '#') t) '#' ++
      t.drop (Text.countWhile (· == '#') t)
    rw [← Text.take_countWhile_eq, List.take_append_drop]
  · cases found

end Markdown

namespace Document

open Markdown (Block LineRange)

/-! ### The region of a heading -/

/-- Where the first number signs of a line end. -/
def signsStop (line : Text) : Nat :=
  let before := Text.countWhile (· != '#') line
  before + Text.countWhile (· == '#') (line.drop before)

/-- A region stands behind the number signs of a line, and the source has the content there. -/
structure BehindSigns (f : Fragment) (line : Nat) (content : Text) (region : Region) : Prop where
  after : f.lines.start line + signsStop (f.lines.line line) ≤ region.1
  reads : Text.slice f.source region.1 region.2 = content

/-- Nothing but blanks stands before the first number signs of a line, or the content does not occur
in it from a place before their end on. -/
def FirstBehindSigns (line content : Text) : Prop :=
  (∀ c ∈ line.takeWhile (· != '#'), Text.isIndent c = true) ∨
    ∀ n < signsStop line, ¬ content <+: line.drop n

theorem head?_of_signs {rest : Text} (signs : 1 ≤ Text.countWhile (· == '#') rest) :
    rest.head? = some '#' := by
  cases rest with
  | nil =>
      cases signs
  | cons c rest =>
      by_cases same : c = '#'
      · rw [same]
        rfl
      · rw [Text.countWhile, if_neg (by simpa using same)] at signs
        cases signs

theorem countWhile_signs {marks rest : Text} (noSign : '#' ∉ marks) (sign : rest.head? = some '#') :
    Text.countWhile (· != '#') (marks ++ rest) = marks.length := by
  refine Text.countWhile_append (fun c member => ?_) ?_
  · exact bne_iff_ne.mpr fun same => noSign (same ▸ member)
  · rw [sign]
    simp

/-- What is located of a heading is right where it stands behind the number signs. -/
theorem behindSigns_iff {f : Fragment} {content : Text} {i marker n : Nat} (filled : content ≠ [])
    (stands : f.source.StandsAt (f.lines.line i) (f.lines.start i))
    (occurs : Text.find? content ((f.lines.line i).drop marker) = some n) :
    BehindSigns f i content
        (f.lines.start i + marker + n, f.lines.start i + marker + n + content.length) ↔
      signsStop (f.lines.line i) ≤ marker + n := by
  constructor
  · intro behind
    have after := behind.after
    dsimp only at after
    omega
  · intro after
    obtain ⟨rest, parts⟩ := Text.exists_drop_of_find? occurs
    rw [List.drop_drop] at parts
    have inLine : marker + n ≤ (f.lines.line i).length := by
      by_contra past
      rw [List.drop_of_length_le (by omega)] at parts
      exact filled (List.append_eq_nil_iff.mp parts.symm).1
    have place := stands.drop inLine
    rw [parts] at place
    refine ⟨by dsimp only; omega, ?_⟩
    dsimp only
    rw [Nat.add_assoc (f.lines.start i)]
    exact place.left.slice_eq

section Location

variable {f : Fragment} {line depth : Nat} {marks rest content : Text}
  (isLine : f.lines.line line = marks ++ rest) (noSign : '#' ∉ marks)
  (signs : Text.countWhile (· == '#') rest = depth) (some' : 1 ≤ depth)

include isLine noSign signs some'

theorem signsStop_eq : signsStop (f.lines.line line) = marks.length + depth := by
  unfold signsStop
  dsimp only
  rw [isLine, countWhile_signs noSign (head?_of_signs (signs ▸ some')), List.drop_left, signs]

/-- Where the search for the text of a heading begins: behind the number signs, or with the line
where anything but blanks stands before them. -/
theorem locateHeading?_eq (atMost : depth ≤ 6) (filled : content ≠ []) :
    f.locateHeading? line content =
      let marker := if marks.all Text.isIndent then marks.length + depth else 0
      (Text.find? content ((marks ++ rest).drop marker)).map fun n =>
        (f.lines.start line + marker + n, f.lines.start line + marker + n + content.length) := by
  have sign := head?_of_signs (signs ▸ some')
  unfold Fragment.locateHeading?
  rw [if_neg (by simpa using filled), isLine]
  dsimp only
  cases blank : marks.all Text.isIndent with
  | true =>
      have indent : Text.countWhile Text.isIndent (marks ++ rest) = marks.length := by
        refine Text.countWhile_append (List.all_eq_true.mp blank) ?_
        rw [sign]
        simp [Text.isIndent]
      rw [indent, List.drop_left, signs, if_neg (by omega), if_pos rfl, Nat.min_eq_right atMost]
  | false =>
      have parts := List.takeWhile_append_dropWhile (p := Text.isIndent) (l := marks)
      cases behind : marks.dropWhile Text.isIndent with
      | nil =>
          rw [List.all_eq_true.mpr (List.dropWhile_eq_nil_iff.mp behind)] at blank
          cases blank
      | cons c more =>
          rw [behind] at parts
          have solid := List.head?_dropWhile_not Text.isIndent marks
          rw [behind] at solid
          have other : c ≠ '#' := fun same => noSign (parts ▸ by simp [same])
          have indent : Text.countWhile Text.isIndent (marks ++ rest) =
              (marks.takeWhile Text.isIndent).length := by
            rw [← parts, List.append_assoc, Text.countWhile_append
              (List.all_eq_true.mp List.all_takeWhile) (by simpa using solid), parts]
          have none : Text.countWhile (· == '#')
              ((marks ++ rest).drop (marks.takeWhile Text.isIndent).length) = 0 := by
            rw [← parts, List.append_assoc, parts, List.drop_left, List.cons_append,
              Text.countWhile, if_neg (by simpa using other)]
          rw [indent, none]
          rfl

theorem takeWhile_eq_marks : (f.lines.line line).takeWhile (· != '#') = marks := by
  obtain ⟨more, same⟩ := List.head?_eq_some_iff.mp (head?_of_signs (signs ▸ some'))
  rw [isLine, Text.takeWhile_append_of_not_mem noSign, same,
    List.takeWhile_cons_of_neg (by simp), List.append_nil]

/-- Behind nothing but blanks the search begins behind the number signs. Behind other marks it
begins with the line, and what it finds is the first occurrence in the line. -/
theorem exists_behindSigns_iff {lead tail : Text}
    (parts : rest = List.replicate depth '#' ++ (lead ++ (content ++ tail))) (atMost : depth ≤ 6)
    (filled : content ≠ []) (stands : f.source.StandsAt (f.lines.line line) (f.lines.start line)) :
    (∃ region, f.locateHeading? line content = some region ∧ BehindSigns f line content region) ↔
      FirstBehindSigns (f.lines.line line) content := by
  have ends := signsStop_eq isLine noSign signs some'
  have before := takeWhile_eq_marks isLine noSign signs some'
  have located := locateHeading?_eq isLine noSign signs some' atMost filled
  have occurs : content <+: (f.lines.line line).drop (marks.length + depth + lead.length) := by
    rw [isLine, ← List.drop_drop, ← List.drop_drop, List.drop_left, parts,
      List.drop_left' List.length_replicate, List.drop_left]
    exact List.prefix_append _ _
  rw [← isLine] at located
  dsimp only at located
  rw [located]
  cases blank : marks.all Text.isIndent with
  | true =>
      rw [← List.drop_drop] at occurs
      obtain ⟨n, found⟩ := Text.exists_find?_of_occurs occurs
      rw [if_pos rfl, found]
      refine iff_of_true ⟨_, rfl, (behindSigns_iff filled stands found).mpr (by omega)⟩ ?_
      rw [← before] at blank
      exact Or.inl (List.all_eq_true.mp blank)
  | false =>
      rw [← Nat.zero_add (marks.length + depth + lead.length), ← List.drop_drop] at occurs
      obtain ⟨n, found⟩ := Text.exists_find?_of_occurs occurs
      rw [if_neg (by decide), found]
      constructor
      · rintro ⟨region, same, behind⟩
        cases same
        have after := (behindSigns_iff filled stands found).mp behind
        exact Or.inr fun m early => Text.not_prefix_of_find? found m (by omega)
      · rintro (onlyBlanks | first)
        · rw [before, ← List.all_eq_true, blank] at onlyBlanks
          cases onlyBlanks
        · refine ⟨_, rfl, (behindSigns_iff filled stands found).mpr ?_⟩
          by_contra early
          obtain ⟨more, standsThere⟩ := Text.exists_drop_of_find? found
          exact first n (by omega) ⟨more, standsThere.symm⟩

end Location

/-- The text of a heading with number signs is located behind them, where the source has it, exactly
when nothing but blanks stands before the signs or the text does not occur earlier in the line. -/
theorem headingRegion_behindSigns_iff {source content : Text} {start stop depth : Nat}
    {whole : Bool} {found : List Block} {block : Block} {lines inner : LineRange}
    (noNull : ∀ c ∈ source, c.toNat ≠ 0)
    (read : Markdown.blocks (Fragment.between source start stop whole).text = .ok found)
    (member : block ∈ found) (holds : Block.Holds (.heading lines inner depth true content) block)
    (filled : content ≠ []) (locate : ParagraphLocator) :
    let f := Fragment.between source start stop whole
    signsStop (f.lines.line lines.first) =
        Text.countWhile (· != '#') (f.lines.line lines.first) + depth ∧
      ((∃ region,
        (headingRegion locate f lines inner true content).outcome.1 = .ok (some region) ∧
          BehindSigns f lines.first content region) ↔
        FirstBehindSigns (f.lines.line lines.first) content) := by
  intro f
  obtain ⟨marks, rest, isLine, areMarks, isHeading⟩ :=
    Markdown.exists_marks_of_heading start read member holds
  change f.lines.line lines.first = _ at isLine
  have stands : f.lines.line lines.first ≠ [] →
      source.StandsAt (f.lines.line lines.first) (f.lines.start lines.first) :=
    Fragment.line_standsAt
  have sourceOf : f.source = source := rfl
  clear_value f
  obtain ⟨lead, tail, parts, signs, atLeast, atMost⟩ := Markdown.exists_of_atxHeading? isHeading
  have sign := head?_of_signs (signs ▸ atLeast)
  have present : f.lines.line lines.first ≠ [] := by
    rw [isLine]
    intro empty
    rw [(List.append_eq_nil_iff.mp empty).2] at sign
    cases sign
  replace stands := stands present
  have visible : Markdown.shown rest = rest := by
    obtain ⟨before, behind, whole, -⟩ := stands
    refine Markdown.shown_eq_self fun c member => noNull c ?_
    rw [whole, isLine]
    exact List.mem_append_left _ (List.mem_append_right _ (List.mem_append_right _ member))
  rw [visible] at isHeading parts signs sign
  have noSign : '#' ∉ marks := fun member => absurd (areMarks _ member) (by decide)
  rw [← sourceOf] at stands
  constructor
  · rw [signsStop_eq isLine noSign signs atLeast, isLine, countWhile_signs noSign sign]
  · rw [← exists_behindSigns_iff isLine noSign signs atLeast parts atMost filled stands]
    change (∃ region, Except.ok (f.locateHeading? lines.first content) = .ok (some region) ∧ _) ↔ _
    simp only [Except.ok.injEq]

/-- A heading in an ordered list in a block quote, whose text has a number sign in it. -/
theorem headingRegion_behindSigns_quoted :
    let source := Text.ofString "> 1. ## b # c"
    let f := Fragment.between source 0 source.length true
    ∃ region, (headingRegion Fragment.locateParagraph f ⟨0, 1⟩ ⟨0, 1⟩ true
        (Text.ofString "b # c")).outcome.1 = .ok (some region) ∧
      BehindSigns f 0 (Text.ofString "b # c") region := by
  intro source f
  have read : Markdown.blocks f.text = .ok [.blockquote ⟨0, 1⟩ [.list ⟨0, 1⟩ (some 1)
      [.item ⟨0, 1⟩ [.heading ⟨0, 1⟩ ⟨0, 1⟩ 2 true (Text.ofString "b # c")]]]] := by
    decide +kernel
  have holds : Block.Holds (.heading ⟨0, 1⟩ ⟨0, 1⟩ 2 true (Text.ofString "b # c"))
      (.blockquote ⟨0, 1⟩ [.list ⟨0, 1⟩ (some 1)
        [.item ⟨0, 1⟩ [.heading ⟨0, 1⟩ ⟨0, 1⟩ 2 true (Text.ofString "b # c")]]]) :=
    .inside List.mem_cons_self (.inside List.mem_cons_self (.inside List.mem_cons_self .here))
  have visible : source.all (fun c => c.toNat != 0) = true := by
    decide +kernel
  have noNull : ∀ c ∈ source, c.toNat ≠ 0 := fun c member =>
    bne_iff_ne.mp (List.all_eq_true.mp visible c member)
  have first : ∀ n < signsStop (f.lines.line 0),
      ¬ Text.ofString "b # c" <+: (f.lines.line 0).drop n := by
    decide +kernel
  exact (headingRegion_behindSigns_iff noNull read List.mem_cons_self holds (by decide)
    Fragment.locateParagraph).2.mpr (Or.inr first)

/-- Not every heading is located behind its number signs. The number of this list item is found in
place of the heading. -/
theorem not_forall_headingRegion_behindSigns :
    ¬ ∀ (source content : Text) (start stop depth : Nat) (whole : Bool) (found : List Block)
        (block : Block) (lines inner : LineRange), (∀ c ∈ source, c.toNat ≠ 0) →
      Markdown.blocks (Fragment.between source start stop whole).text = .ok found →
      block ∈ found → Block.Holds (.heading lines inner depth true content) block → content ≠ [] →
      ∃ region, (headingRegion Fragment.locateParagraph (Fragment.between source start stop whole)
          lines inner true content).outcome.1 = .ok (some region) ∧
        BehindSigns (Fragment.between source start stop whole) lines.first content region := by
  intro always
  have read : Markdown.blocks (Fragment.between (Text.ofString "1. # 1") 0 6 true).text =
      .ok [.list ⟨0, 1⟩ (some 1) [.item ⟨0, 1⟩ [.heading ⟨0, 1⟩ ⟨0, 1⟩ 1 true ['1']]]] := by
    decide +kernel
  have visible : (Text.ofString "1. # 1").all (fun c => c.toNat != 0) = true := by
    decide +kernel
  have noNull : ∀ c ∈ Text.ofString "1. # 1", c.toNat ≠ 0 := fun c member =>
    bne_iff_ne.mp (List.all_eq_true.mp visible c member)
  obtain ⟨region, located, behind⟩ := always _ ['1'] 0 6 1 true _ _ ⟨0, 1⟩ ⟨0, 1⟩ noNull read
    List.mem_cons_self (.inside List.mem_cons_self (.inside List.mem_cons_self .here))
    (List.cons_ne_nil _ _)
  have first : (headingRegion Fragment.locateParagraph
      (Fragment.between (Text.ofString "1. # 1") 0 6 true) ⟨0, 1⟩ ⟨0, 1⟩ true ['1']).outcome.1 =
      .ok (some (0, 1)) := by
    decide +kernel
  rw [first] at located
  cases located
  have signs : ¬ (Fragment.between (Text.ofString "1. # 1") 0 6 true).lines.start 0 + signsStop
      ((Fragment.between (Text.ofString "1. # 1") 0 6 true).lines.line 0) ≤ 0 := by
    decide +kernel
  exact signs behind.after

end Document

end MdxLocalization
