import MdxLocalization.Document.Parsing
import MdxLocalization.Proofs.BlockOrigins
import MdxLocalization.Proofs.CellBounds
import MdxLocalization.Proofs.NodeEquality
import MdxLocalization.Proofs.ParseRange

/-!
# Cells where they stand in the source

The cells of a row are counted off: the node of a cell gets the region of the cell with the same
number that is located in the line. That cell is another one if the marks of a block quote or a list
item stand before the row, since they are taken for the first cell, and behind a bar that cuts only
where cells are located. `RowAlike` says when the cells agree.
-/

namespace MdxLocalization.Document

open Fragment (cellBounds)
open Markdown (Block LineRange TableRow fitCells isBlockMark isContentSpace rowCells shown
  shownChar splitRow trimContent)

def dropFirst (drop : Region → Bool) (pieces : List Region) : List Region :=
  if pieces.head?.any drop then pieces.drop 1 else pieces

/-- Some pieces without those at the ends that are to be dropped. -/
def dropEnds (drop : Region → Bool) (pieces : List Region) : List Region :=
  let pieces := dropFirst drop pieces
  if pieces.getLast?.any drop then pieces.dropLast else pieces

def isEmptyRegion (r : Region) : Bool := r.1 == r.2

def isBlankRegion (text : Text) (r : Region) : Bool :=
  Text.isBlankText (Text.slice text r.1 r.2)

/-- The pieces of a row whose content starts somewhere in a line. -/
def rowPieces (text : Text) (start : Nat) : List Region :=
  let content := text.drop start
  let lead := start + (content.takeWhile isContentSpace).length
  barBounds lead lead false (trimContent content)

/-- The cells of a row, without an empty one at either end. -/
def rowRegions (text : Text) (start : Nat) : List Region :=
  dropEnds isEmptyRegion (rowPieces text start)

/-- A text without the backslashes that stand directly before bars. -/
def unescapeBars : Text → Text
  | [] => []
  | c :: rest =>
    if c = '\\' ∧ rest.head? = some '|' then unescapeBars rest else c :: unescapeBars rest

def cellText (text : Text) (r : Region) : Text := unescapeBars (Text.slice text r.1 r.2)

/-- The cell that a row has in a column, without the white space around it. -/
def readCell (text : Text) (start k : Nat) : Option Region :=
  cellAt ((rowRegions text start).map (trimmed? text)) k

def locatedCell (text : Text) (k : Nat) : Option Region :=
  cellAt ((dropEnds (isBlankRegion text) (cellBounds 0 0 false text)).map (trimmed? text)) k

/-- What it takes for the first cells that are located in a line to be those of the row whose
content starts at a place in it. -/
structure RowAlike (text : Text) (start width : Nat) : Prop where
  /-- No marks of other blocks stand before the row. -/
  unmarked : Text.isBlankText (text.take start) = true
  uncut : ∀ k < width, ∀ r ∈ (rowRegions text start)[k]?, Uncut text r
  /-- The row does not start with a cell of characters that only locating takes for white space,
  unless all cells that are compared are empty. -/
  first : (∀ r ∈ (rowPieces text start).head?, isBlankRegion text r = true → r.1 = r.2) ∨
    ∀ k ≤ width, readCell text start k = none

instance (text : Text) (start width : Nat) : Decidable (RowAlike text start width) :=
  decidable_of_iff
    (Text.isBlankText (text.take start) = true ∧
      (∀ k < width, ∀ r ∈ (rowRegions text start)[k]?, Uncut text r) ∧
      ((∀ r ∈ (rowPieces text start).head?, isBlankRegion text r = true → r.1 = r.2) ∨
        ∀ k ≤ width, readCell text start k = none))
    ⟨fun ⟨unmarked, uncut, first⟩ => ⟨unmarked, uncut, first⟩,
      fun alike => ⟨alike.unmarked, alike.uncut, alike.first⟩⟩

variable {text t : Text} {start position : Nat} {escaped : Bool} {r : Region}

/-! ### Cells as they are read -/

theorem unescapeBars_eq_nil_iff : unescapeBars t = [] ↔ t = [] := by
  induction t with
  | nil =>
      exact Iff.rfl
  | cons c t hypothesis =>
      rw [unescapeBars]
      split
      · rename_i escapes
        rw [hypothesis]
        refine iff_of_false (fun empty => ?_) (List.cons_ne_nil _ _)
        rw [empty] at escapes
        cases escapes.2
      · exact iff_of_false (List.cons_ne_nil _ _) (List.cons_ne_nil _ _)

theorem unescapeBars_concat (t : Text) (c : Char) :
    unescapeBars (t ++ [c]) =
      (if c = '|' ∧ t.getLast? = some '\\' then (unescapeBars t).dropLast else unescapeBars t) ++
        [c] := by
  induction t with
  | nil =>
      simp [unescapeBars]
  | cons d t hypothesis =>
      rw [List.cons_append, unescapeBars, unescapeBars, hypothesis]
      cases t with
      | nil =>
          by_cases escapes : d = '\\' ∧ c = '|'
          · simp [escapes, unescapeBars]
          · simp [escapes, and_comm, unescapeBars]
      | cons e t =>
          have filled : unescapeBars (e :: t) ≠ [] := unescapeBars_eq_nil_iff.not.mpr (by simp)
          rw [List.cons_append, List.getLast?_cons_cons]
          simp only [List.head?_cons, Option.some.injEq]
          split <;> split <;> simp [List.dropLast_cons_of_ne_nil filled]

theorem slice_self (t : Text) (i : Nat) : Text.slice t i i = [] := by
  rw [Text.slice, Nat.sub_self, List.take_zero]

theorem slice_succ {c : Char} (begun : start ≤ position) (here : text[position]? = some c) :
    Text.slice text start (position + 1) = Text.slice text start position ++ [c] := by
  rw [← Text.slice_append_slice text begun (Nat.le_succ position)]
  congr 1
  rw [Text.slice, Nat.succ_eq_add_one, Nat.add_sub_cancel_left, List.take_one, List.head?_drop,
    here]
  rfl

/-- What has been read of a cell is what stands between the start of its piece and the position. -/
theorem splitRow_eq {current : Text} (stands : t <+: text.drop position) (begun : start ≤ position)
    (read : current.reverse = unescapeBars (Text.slice text start position))
    (slash : escaped = true ↔ (Text.slice text start position).getLast? = some '\\') :
    splitRow escaped current t = (barBounds start position escaped t).map (cellText text) := by
  induction t generalizing start position escaped current with
  | nil =>
      rw [splitRow, barBounds_nil, List.map_singleton, read]
      rfl
  | cons c t hypothesis =>
      obtain ⟨here, onward⟩ := prefix_drop_succ stands
      have begun' := Nat.le_succ_of_le begun
      have further := slice_succ begun here
      have read' := unescapeBars_concat (Text.slice text start position) c
      rw [← further, ← read] at read'
      rw [splitRow, barBounds_cons]
      by_cases isBar : c = '|'
      · subst isBar
        cases escaped with
        | true =>
            -- The backslash before the bar has been read already and is taken back.
            have bar : ('|' :: current.drop 1).reverse =
                unescapeBars (Text.slice text start (position + 1)) := by
              rw [read', if_pos ⟨rfl, slash.mp rfl⟩, List.reverse_cons]
              cases current <;> simp
            rw [if_pos rfl, if_pos rfl, if_neg (by decide)]
            exact hypothesis onward begun' bar (by simp [further])
        | false =>
            rw [if_pos rfl, if_neg (by decide), if_pos (by decide), List.map_cons, read,
              hypothesis onward (Nat.le_refl _) (by rw [slice_self]; rfl) (by simp [slice_self])]
            rfl
      · have next : (c :: current).reverse =
            unescapeBars (Text.slice text start (position + 1)) := by
          rw [read', if_neg (fun escapes => isBar escapes.1), List.reverse_cons]
        rw [if_neg isBar, if_neg (by simp [isBar])]
        exact hypothesis onward begun' next (by simp [further])

theorem map_dropEnds {f : Region → Text} {drop : Region → Bool} {pieces : List Region}
    (dropped : ∀ r ∈ pieces, f r = [] ↔ drop r = true) :
    (let cells := pieces.map f
     let cells := if cells.head? = some [] then cells.drop 1 else cells
     if cells.getLast? = some [] then cells.dropLast else cells) =
      (dropEnds drop pieces).map f := by
  have first : (if (pieces.map f).head? = some [] then (pieces.map f).drop 1 else pieces.map f) =
      (dropFirst drop pieces).map f := by
    cases pieces with
    | nil =>
        rfl
    | cons r rest =>
        simp [dropFirst, dropped r List.mem_cons_self, apply_ite]
  have among : ∀ r ∈ dropFirst drop pieces, f r = [] ↔ drop r = true := by
    intro r member
    apply dropped
    unfold dropFirst at member
    split at member
    · exact List.mem_of_mem_drop member
    · exact member
  dsimp only
  rw [first]
  unfold dropEnds
  dsimp only
  generalize dropFirst drop pieces = kept at among ⊢
  rw [List.getLast?_map]
  cases isLast : kept.getLast? with
  | none =>
      rfl
  | some r =>
      simp only [Option.map_some, Option.some.injEq, Option.any_some,
        among r (List.mem_of_getLast? isLast), apply_ite (List.map f), List.map_dropLast]

theorem trimContent_stands (text : Text) (start : Nat) :
    trimContent (text.drop start) <+:
      text.drop (start + ((text.drop start).takeWhile isContentSpace).length) := by
  obtain ⟨tail, parts, -⟩ := Markdown.exists_trimContent (text.drop start)
  refine ⟨tail, ?_⟩
  rw [← List.drop_drop]
  generalize (text.drop start).takeWhile isContentSpace = lead at parts ⊢
  generalize trimContent (text.drop start) = content at parts ⊢
  rw [parts, List.drop_left]

/-- The cells of a row are the text of its regions. -/
theorem rowCells_eq (text : Text) (start : Nat) :
    rowCells (text.drop start) = (rowRegions text start).map (cellText text) := by
  have stands := trimContent_stands text start
  have pieces : splitRow false [] (trimContent (text.drop start)) =
      (rowPieces text start).map (cellText text) :=
    splitRow_eq stands (Nat.le_refl _) (by rw [slice_self]; rfl) (by simp [slice_self])
  rw [rowCells, pieces, rowRegions]
  apply map_dropEnds
  intro r member
  have bounds := barBounds_within (Nat.le_refl _) r member
  have length := stands.length_le
  rw [List.length_drop] at length
  rw [cellText, unescapeBars_eq_nil_iff, ← List.length_eq_zero_iff, Text.length_slice,
    isEmptyRegion, beq_iff_eq]
  omega

/-! ### Cells as block rules see them -/

theorem isContentSpace_shownChar (c : Char) : isContentSpace (shownChar c) = isContentSpace c := by
  unfold shownChar
  split
  · rename_i null
    simp only [isContentSpace, null]
    rfl
  · rfl

theorem dropWhile_shown (t : Text) :
    (shown t).dropWhile isContentSpace = shown (t.dropWhile isContentSpace) := by
  unfold shown
  rw [List.dropWhile_map, Function.comp_def]
  simp only [isContentSpace_shownChar]

theorem trimContent_shown (t : Text) : trimContent (shown t) = shown (trimContent t) := by
  have reversed (t : Text) : (shown t).reverse = shown t.reverse := List.map_reverse.symm
  unfold trimContent Text.dropEndWhile
  rw [dropWhile_shown, reversed, dropWhile_shown, reversed]

theorem barBounds_shown (start position : Nat) (escaped : Bool) (t : Text) :
    barBounds start position escaped (shown t) = barBounds start position escaped t := by
  induction t generalizing start position escaped with
  | nil =>
      rfl
  | cons c t hypothesis =>
      have isBar : shownChar c = '|' ↔ c = '|' := Markdown.shownChar_eq_iff (by decide)
      have isSlash : (shownChar c == '\\') = (c == '\\') := by
        rw [Bool.eq_iff_iff, beq_iff_eq, beq_iff_eq]
        exact Markdown.shownChar_eq_iff (by decide)
      change barBounds start position escaped (shownChar c :: shown t) = _
      rw [barBounds_cons, barBounds_cons, hypothesis, hypothesis, isSlash]
      simp only [isBar]

theorem rowRegions_shown (text : Text) (start : Nat) :
    rowRegions (shown text) start = rowRegions text start := by
  have content : (shown text).drop start = shown (text.drop start) := List.map_drop.symm
  have lead : ((shown (text.drop start)).takeWhile isContentSpace).length =
      ((text.drop start).takeWhile isContentSpace).length := by
    unfold shown
    rw [List.takeWhile_map, List.length_map, Function.comp_def]
    simp only [isContentSpace_shownChar]
  unfold rowRegions rowPieces
  dsimp only
  rw [content, lead, trimContent_shown, barBounds_shown]

/-! ### Comparing the two ways -/

theorem isBlank_of_isContentSpace {c : Char} (space : isContentSpace c = true) :
    Text.isBlank c = true := by
  unfold isContentSpace at space
  unfold Text.isBlank
  simp only [Bool.or_eq_true, Bool.and_eq_true, decide_eq_true_eq, beq_iff_eq] at space ⊢
  omega

theorem isBlankText_of_content (space : ∀ c ∈ t, isContentSpace c = true) :
    Text.isBlankText t = true :=
  List.all_eq_true.mpr fun c member => isBlank_of_isContentSpace (space c member)

theorem isBlankRegion_iff : isBlankRegion text r = true ↔ trimmed? text r = none :=
  trimmed?_eq_none_iff.symm

theorem isBlankRegion_of_isEmptyRegion (empty : isEmptyRegion r = true) :
    isBlankRegion text r = true := by
  rw [isEmptyRegion, beq_iff_eq] at empty
  rw [isBlankRegion, empty, slice_self]
  rfl

theorem dropEnds_subset (drop : Region → Bool) (pieces : List Region) :
    dropEnds drop pieces ⊆ pieces := by
  have first : dropFirst drop pieces ⊆ pieces := by
    unfold dropFirst
    split
    · exact List.drop_subset 1 pieces
    · exact List.Subset.refl pieces
  unfold dropEnds
  dsimp only
  split
  · exact List.Subset.trans (List.dropLast_subset _) first
  · exact first

/-- The last piece may be gone, if it was to be dropped. -/
theorem getElem?_dropEnds (drop : Region → Bool) (pieces : List Region) (k : Nat) :
    (dropEnds drop pieces)[k]? = (dropFirst drop pieces)[k]? ∨
      (dropEnds drop pieces)[k]? = none ∧
        ∃ last, (dropFirst drop pieces)[k]? = some last ∧ drop last = true := by
  unfold dropEnds
  dsimp only
  generalize dropFirst drop pieces = kept
  cases isLast : kept.getLast? with
  | none =>
      exact Or.inl rfl
  | some last =>
      obtain ⟨others, rfl⟩ := List.getLast?_eq_some_iff.mp isLast
      rw [Option.any_some, List.dropLast_concat]
      split
      · rename_i drops
        rcases Nat.lt_trichotomy k others.length with inside | rfl | behind
        · exact Or.inl (List.getElem?_append_left inside).symm
        · exact Or.inr ⟨List.getElem?_eq_none (Nat.le_refl _), last, by simp, drops⟩
        · left
          rw [List.getElem?_eq_none (Nat.le_of_lt behind), List.getElem?_eq_none]
          rw [List.length_append, List.length_singleton]
          exact behind
      · exact Or.inl rfl

theorem cellAt_map (pieces : List Region) (k : Nat) :
    cellAt (pieces.map (trimmed? text)) k = (pieces[k]?).bind (trimmed? text) := by
  rw [cellAt, List.getElem?_map]
  cases pieces[k]? <;> rfl

/-- Dropping a last piece that is blank makes no difference. -/
theorem cellAt_dropEnds {drop : Region → Bool}
    (dropped : ∀ r, drop r = true → isBlankRegion text r = true) (pieces : List Region) (k : Nat) :
    cellAt ((dropEnds drop pieces).map (trimmed? text)) k =
      cellAt ((dropFirst drop pieces).map (trimmed? text)) k := by
  rw [cellAt_map, cellAt_map]
  rcases getElem?_dropEnds drop pieces k with same | ⟨gone, last, isLast, drops⟩
  · rw [same]
  · rw [gone, isLast, Option.bind_some, isBlankRegion_iff.mp (dropped last drops)]
    rfl

theorem uncut_dropEnds_iff (pieces : List Region) (k : Nat) :
    (∀ r ∈ (dropEnds isEmptyRegion pieces)[k]?, Uncut text r) ↔
      ∀ r ∈ (dropFirst isEmptyRegion pieces)[k]?, Uncut text r := by
  rcases getElem?_dropEnds isEmptyRegion pieces k with same | ⟨gone, last, isLast, drops⟩
  · rw [same]
  · rw [gone, isLast]
    refine iff_of_true (by simp) fun r same => ?_
    cases same
    exact hasOpenBar_of_isBlankText (isBlankRegion_of_isEmptyRegion drops) false

def dropNone (cells : List (Option Region)) : List (Option Region) :=
  if cells.head? = some none then cells.drop 1 else cells

theorem map_dropFirst (pieces : List Region) :
    (dropFirst (isBlankRegion text) pieces).map (trimmed? text) =
      dropNone (pieces.map (trimmed? text)) := by
  cases pieces with
  | nil =>
      rfl
  | cons r rest =>
      simp [dropFirst, dropNone, isBlankRegion_iff, apply_ite]

theorem readCell_eq (text : Text) (start k : Nat) :
    readCell text start k =
      cellAt ((dropFirst isEmptyRegion (rowPieces text start)).map (trimmed? text)) k :=
  cellAt_dropEnds (fun _ => isBlankRegion_of_isEmptyRegion) _ k

theorem locatedCell_eq (text : Text) (k : Nat) :
    locatedCell text k = cellAt (dropNone ((cellBounds 0 0 false text).map (trimmed? text))) k := by
  rw [← map_dropFirst]
  exact cellAt_dropEnds (fun _ blank => blank) _ k

/-- A row without marks before it is cut where it is read, and then each piece again. -/
theorem map_cellBounds_of_unmarked (inLine : start ≤ text.length)
    (unmarked : Text.isBlankText (text.take start) = true) :
    (cellBounds 0 0 false text).map (trimmed? text) =
      ((rowPieces text start).flatMap (subBounds text)).map (trimmed? text) := by
  have stands := trimContent_stands text start
  obtain ⟨tail, parts, tails⟩ := Markdown.exists_trimContent (text.drop start)
  have leads := isBlankText_of_content
    (List.all_eq_true.mp (List.all_takeWhile (p := isContentSpace) (l := text.drop start)))
  unfold rowPieces
  dsimp only
  generalize (text.drop start).takeWhile isContentSpace = lead at stands parts leads ⊢
  generalize trimContent (text.drop start) = content at stands parts ⊢
  have whole : text = (text.take start ++ lead) ++ (content ++ tail) := by
    rw [List.append_assoc, ← parts, List.take_append_drop]
  have size : (text.take start ++ lead).length = start + lead.length := by
    rw [List.length_append, List.length_take, Nat.min_eq_left inLine]
  have before : Text.isBlankText (text.take start ++ lead) = true := by
    rw [Text.isBlankText, List.all_append, Bool.and_eq_true]
    exact ⟨unmarked, leads⟩
  generalize text.take start ++ lead = outer at whole size before
  rw [← size] at stands ⊢
  have blank : Text.isBlankText (Text.slice text 0 outer.length) = true := by
    rw [Text.slice, whole]
    simpa using before
  have inPlace : content ++ tail <+: text.drop outer.length :=
    ⟨[], by rw [List.append_nil, whole, List.drop_left]⟩
  have skipped : cellBounds 0 0 false text =
      cellBounds 0 outer.length false (content ++ tail) := by
    rw [whole, cellBounds_append_of_isBlankText before, Nat.zero_add]
  rw [skipped, trimmed?_cellBounds inPlace (isBlankText_of_content tails) (Nat.zero_le _)
    (Nat.le_refl _) blank]
  obtain ⟨stop, rest, pieces, after, upTo⟩ :=
    exists_barBounds outer.length outer.length false content
  rw [cellBounds_refines stands (fun held => held) pieces, pieces, List.flatMap_cons, subBounds,
    slice_of_leading stands upTo]

theorem exists_rowPieces (text : Text) (start : Nat) :
    ∃ p rest, rowPieces text start = p :: rest := by
  unfold rowPieces
  dsimp only
  obtain ⟨stop, rest, pieces, -, -⟩ := exists_barBounds
    (start + ((text.drop start).takeWhile isContentSpace).length)
    (start + ((text.drop start).takeWhile isContentSpace).length) false
    (trimContent (text.drop start))
  exact ⟨_, rest, pieces⟩

theorem rowPieces_comparable (text : Text) (start : Nat) :
    ∀ r ∈ rowPieces text start, Comparable text r := fun _ =>
  comparable_of_mem_barBounds (trimContent_stands text start)

/-- Marks before a row are located as its first cell. -/
theorem locatedCell_ne_of_marked (noBar : '|' ∉ text.take start)
    (marked : ¬ Text.isBlankText (text.take start) = true) :
    locatedCell text 0 ≠ readCell text start 0 := by
  obtain ⟨c, member, solid⟩ := List.all_eq_false.mp (Bool.not_eq_true _ ▸ marked)
  rw [Bool.not_eq_true] at solid
  obtain ⟨i, isThere⟩ := List.getElem?_of_mem member
  have inside : i < start := by
    have bound := (List.getElem?_eq_some_iff.mp isThere).1
    rw [List.length_take] at bound
    omega
  rw [List.getElem?_take_of_lt inside] at isThere
  have inLine := (List.getElem?_eq_some_iff.mp isThere).1
  obtain ⟨stop, more, cells, after⟩ := exists_cellBounds_append noBar (text.drop start) 0 0 false
  rw [List.take_append_drop, List.length_take] at *
  obtain ⟨a, b, first, before, -⟩ :=
    exists_trimmed? (0, stop) (Nat.zero_le i) (by dsimp only; omega) isThere solid
  have located : locatedCell text 0 = some (a, b) := by
    rw [locatedCell_eq, cells, List.map_cons, first, dropNone, if_neg (by simp), cellAt_cons_zero]
  rw [located]
  intro same
  rw [readCell, cellAt_map] at same
  obtain ⟨r, isPiece, found⟩ := Option.bind_eq_some_iff.mp same.symm
  have isRead := dropEnds_subset _ _ (List.mem_of_getElem? isPiece)
  have bounds := barBounds_within (Nat.le_refl _) r isRead
  have within := (trimmed?_bounds found).1
  omega

section FirstPiece

variable {p : Region} {rest : List Region} (comparable : ∀ r ∈ p :: rest, Comparable text r)
  (width : Nat)

include comparable

/-- A first piece of white space is not located. It is no cell of the row either if there is nothing
in it at all, and otherwise all cells are compared with the one before. -/
theorem cells_eq_iff_of_blank (blank : trimmed? text p = none) :
    (∀ k < width, cellAt (dropNone (((p :: rest).flatMap (subBounds text)).map (trimmed? text))) k =
        cellAt ((dropFirst isEmptyRegion (p :: rest)).map (trimmed? text)) k) ↔
      (∀ k < width, ∀ r ∈ (dropFirst isEmptyRegion (p :: rest))[k]?, Uncut text r) ∧
        (p.1 = p.2 ∨ ∀ k ≤ width,
          cellAt ((dropFirst isEmptyRegion (p :: rest)).map (trimmed? text)) k = none) := by
  obtain ⟨here, others⟩ := List.forall_mem_cons.mp comparable
  have located : dropNone (((p :: rest).flatMap (subBounds text)).map (trimmed? text)) =
      (rest.flatMap (subBounds text)).map (trimmed? text) := by
    rw [List.flatMap_cons, here.uncut (uncut_of_trimmed?_eq_none here blank), List.singleton_append,
      List.map_cons, blank]
    exact if_pos rfl
  rw [located]
  by_cases empty : p.1 = p.2
  · have read : dropFirst isEmptyRegion (p :: rest) = rest := by
      simp [dropFirst, isEmptyRegion, empty]
    rw [read, and_iff_left (Or.inl empty)]
    exact cellAt_eq_iff_uncut others width
  · have read : dropFirst isEmptyRegion (p :: rest) = p :: rest := by
      simp [dropFirst, isEmptyRegion, empty]
    rw [read, List.map_cons, blank, cellAt_eq_iff_empty others width]
    constructor
    · intro none
      refine ⟨fun k inside r isThere => ?_, Or.inr fun k upTo => ?_⟩
      · cases k with
        | zero =>
            cases isThere
            exact uncut_of_trimmed?_eq_none here blank
        | succ k =>
            rw [Option.mem_def, List.getElem?_cons_succ] at isThere
            have nothing := none k (by omega)
            rw [cellAt_map, isThere] at nothing
            exact uncut_of_trimmed?_eq_none (others r (List.mem_of_getElem? isThere)) nothing
      · cases k with
        | zero =>
            rfl
        | succ k =>
            exact none k (by omega)
    · rintro ⟨-, same | none⟩
      · exact absurd same empty
      · exact fun k inside => none (k + 1) inside

theorem cells_eq_iff_of_filled (filled : trimmed? text p ≠ none) :
    (∀ k < width, cellAt (dropNone (((p :: rest).flatMap (subBounds text)).map (trimmed? text))) k =
        cellAt ((dropFirst isEmptyRegion (p :: rest)).map (trimmed? text)) k) ↔
      ∀ k < width, ∀ r ∈ (dropFirst isEmptyRegion (p :: rest))[k]?, Uncut text r := by
  obtain ⟨here, -⟩ := List.forall_mem_cons.mp comparable
  have located : dropNone (((p :: rest).flatMap (subBounds text)).map (trimmed? text)) =
      ((p :: rest).flatMap (subBounds text)).map (trimmed? text) := by
    rw [List.flatMap_cons]
    by_cases uncut : Uncut text p
    · rw [here.uncut uncut]
      exact if_neg (by simpa using filled)
    · obtain ⟨first, more, isCut, some, -, -⟩ := here.cut uncut
      rw [isCut]
      exact if_neg (by simpa using some)
  have read : dropFirst isEmptyRegion (p :: rest) = p :: rest := by
    refine if_neg fun empty => filled ?_
    exact isBlankRegion_iff.mp (isBlankRegion_of_isEmptyRegion empty)
  rw [located, read]
  exact cellAt_eq_iff_uncut comparable width

end FirstPiece

/-- The cells that are located in a line for the first columns are those of the row exactly if the
row is as usual. -/
theorem locatedCell_eq_iff (inLine : start ≤ text.length) (noBar : '|' ∉ text.take start)
    {width : Nat} (something : 0 < width) :
    (∀ k < width, locatedCell text k = readCell text start k) ↔ RowAlike text start width := by
  by_cases unmarked : Text.isBlankText (text.take start) = true
  · have comparable := rowPieces_comparable text start
    obtain ⟨p, rest, pieces⟩ := exists_rowPieces text start
    have alike : RowAlike text start width ↔
        (∀ k < width, ∀ r ∈ (dropFirst isEmptyRegion (rowPieces text start))[k]?, Uncut text r) ∧
          ((∀ r ∈ (rowPieces text start).head?, isBlankRegion text r = true → r.1 = r.2) ∨
            ∀ k ≤ width, cellAt ((dropFirst isEmptyRegion (rowPieces text start)).map
              (trimmed? text)) k = none) := by
      simp only [← uncut_dropEnds_iff, ← readCell_eq]
      exact ⟨fun alike => ⟨alike.uncut, alike.first⟩,
        fun ⟨uncut, first⟩ => ⟨unmarked, uncut, first⟩⟩
    simp only [alike, locatedCell_eq, readCell_eq, map_cellBounds_of_unmarked inLine unmarked]
    rw [pieces] at comparable ⊢
    have head : (∀ r ∈ (p :: rest).head?, isBlankRegion text r = true → r.1 = r.2) ↔
        (trimmed? text p = none → p.1 = p.2) := by
      simp [isBlankRegion_iff]
    rw [head]
    by_cases blank : trimmed? text p = none
    · simp only [blank, true_imp_iff]
      exact cells_eq_iff_of_blank comparable width blank
    · simp only [blank, false_imp_iff, true_or, and_true]
      exact cells_eq_iff_of_filled comparable width blank
  · -- The first cell that is located begins with the marks, before the row.
    refine iff_of_false (fun same => ?_) (fun alike => unmarked alike.unmarked)
    exact locatedCell_ne_of_marked noBar unmarked (same 0 something)

/-! ### Nodes of rows -/

variable {f : Fragment}

def partSpan (base : Nat) (r : Region) : Span := Span.ofNats (base + r.1) (base + r.2)

theorem partSpan_injective (base : Nat) : Function.Injective (partSpan base) := by
  intro r r' same
  simp only [partSpan, Span.ofNats, Span.mk.injEq, Int.ofNat_inj] at same
  exact Prod.ext (by omega) (by omega)

/-- The region of a cell is its piece of the line without the white space around it, if anything is
left of that. -/
theorem cellRegion_eq {i : Nat} {b : Region} (proper : b.1 ≤ b.2)
    (inLine : b.2 ≤ (f.lines.line i).length) :
    match trimmed? (f.lines.line i) b with
    | none => ¬ (f.cellRegion i b).1 < (f.cellRegion i b).2
    | some (start, stop) =>
      f.cellRegion i b = (f.lines.start i + start, f.lines.start i + stop) := by
  have size : (Text.slice (f.lines.line i) b.1 b.2).length = b.2 - b.1 := by
    rw [Text.length_slice]
    omega
  have kept := Text.length_dropEndWhile_le Text.isBlank (Text.slice (f.lines.line i) b.1 b.2)
  have lead := Text.countWhile_le_length Text.isBlank (Text.slice (f.lines.line i) b.1 b.2)
  unfold Fragment.cellRegion Text.trimStart
  dsimp only
  rw [Text.dropWhile_eq_drop_countWhile, List.length_drop, Nat.sub_sub_self lead]
  cases found : trimmed? (f.lines.line i) b with
  | none =>
      have blank := List.all_eq_true.mp (trimmed?_eq_none_iff.mp found)
      generalize Text.slice (f.lines.line i) b.1 b.2 = cell at size blank ⊢
      have nothing : Text.dropEndWhile Text.isBlank ([] ++ cell) = [] :=
        Text.dropEndWhile_append (by simp) blank
      have all : Text.countWhile Text.isBlank (cell ++ []) = cell.length :=
        Text.countWhile_append blank (by simp)
      rw [List.nil_append] at nothing
      rw [List.append_nil] at all
      dsimp only
      rw [Text.trimEnd, nothing, all, List.length_nil]
      omega
  | some region =>
      obtain ⟨start, stop⟩ := region
      have inOrder := trimmed?_lt found
      unfold trimmed? at found
      dsimp only at found
      split at found
      · cases found
      · rw [Option.some.injEq, Prod.mk.injEq] at found
        obtain ⟨rfl, rfl⟩ := found
        unfold Text.trimEnd at inOrder ⊢
        exact Prod.ext (Nat.add_assoc _ _ _) (by dsimp only; omega)

theorem cellNode_span (within : f.Within) {i : Nat} {b : Region} (proper : b.1 ≤ b.2)
    (inLine : b.2 ≤ (f.lines.line i).length) :
    Traced.Ends (fun node => node.span =
        (trimmed? (f.lines.line i) b).map (partSpan (f.lines.start i))) (fun _ => False)
      (cellNode f (some (f.cellRegion i b))) := by
  have region := cellRegion_eq proper inLine
  cases found : trimmed? (f.lines.line i) b with
  | none =>
      rw [found] at region
      dsimp only at region
      rw [cellNode, if_neg region]
      exact Traced.ends_pure rfl
  | some part =>
      obtain ⟨start, stop⟩ := part
      rw [found] at region
      dsimp only at region
      have inOrder := trimmed?_lt found
      have upTo := (trimmed?_bounds found).2.1
      have inSource := within.line_le i
      rw [region, cellNode, if_pos (by omega)]
      exact (inlineNodes_ends (by dsimp only; omega)).map fun children _ => rfl

theorem rowNode_spans (within : f.Within) (row : Markdown.TableRow) :
    Traced.Ends (fun node => node.children.map Node.span = (List.range row.cells.length).map
        fun k => (locatedCell (f.lines.line row.line) k).map (partSpan (f.lines.start row.line)))
      (fun _ => False) (rowNode f row) := by
  have each (k : Nat) : Traced.Ends (fun node => node.span =
        (locatedCell (f.lines.line row.line) k).map (partSpan (f.lines.start row.line)))
      (fun _ => False) (cellNode f (f.locateCells row.line)[k]?) := by
    have located : (f.locateCells row.line)[k]? =
        ((dropEnds (isBlankRegion (f.lines.line row.line))
          (cellBounds 0 0 false (f.lines.line row.line)))[k]?).map (f.cellRegion row.line) :=
      List.getElem?_map
    rw [located, locatedCell, cellAt_map]
    cases isCell : (dropEnds (isBlankRegion (f.lines.line row.line))
        (cellBounds 0 0 false (f.lines.line row.line)))[k]? with
    | none =>
        exact Traced.ends_pure rfl
    | some b =>
        have member := dropEnds_subset _ _ (List.mem_of_getElem? isCell)
        have bounds := Fragment.cellBounds_within (Nat.le_refl 0) b member
        exact cellNode_span within bounds.1 (by omega)
  unfold rowNode
  dsimp only
  refine (Traced.ends_mapM_forall₂ fun k _ => each k).map fun nodes spans => ?_
  have same : List.Forall₂ (· = ·) (nodes.map Node.span) ((List.range row.cells.length).map fun k =>
      (locatedCell (f.lines.line row.line) k).map (partSpan (f.lines.start row.line))) := by
    rw [List.forall₂_map_left_iff, List.forall₂_map_right_iff]
    exact spans.flip
  rw [List.forall₂_eq_eq_eq] at same
  exact same

/-- The cells of a row are those of its line from some place on, behind marks of other blocks. -/
structure ReadFrom (text : Text) (cells : List Text) (start : Nat) : Prop where
  inLine : start ≤ text.length
  marks : ∀ c ∈ text.take start, isBlockMark c = true
  cells : cells = fitCells cells.length ((rowRegions text start).map (cellText (shown text)))

instance (text : Text) (cells : List Text) (start : Nat) : Decidable (ReadFrom text cells start) :=
  decidable_of_iff
    (start ≤ text.length ∧ (text.take start).all isBlockMark = true ∧
      cells = fitCells cells.length ((rowRegions text start).map (cellText (shown text))))
    ⟨fun ⟨inLine, marks, cells⟩ => ⟨inLine, List.all_eq_true.mp marks, cells⟩,
      fun readFrom => ⟨readFrom.inLine, List.all_eq_true.mpr readFrom.marks, readFrom.cells⟩⟩

theorem readFrom_of_marks {marks rest : Text} {cells : List Text} (isText : text = marks ++ rest)
    (areMarks : ∀ c ∈ marks, isBlockMark c = true)
    (read : cells = fitCells cells.length (rowCells (shown rest))) :
    ReadFrom text cells marks.length := by
  refine ⟨?_, ?_, ?_⟩
  · rw [isText, List.length_append]
    exact Nat.le_add_right _ _
  · rw [isText, List.take_left]
    exact areMarks
  · have content : (shown text).drop marks.length = shown rest := by
      rw [isText, shown, List.map_append]
      exact List.drop_left' (List.length_map _)
    rw [← rowRegions_shown, ← rowCells_eq, content]
    exact read

/-- The row node is built without an error, and its cells have the spans of a row that is read from
some place in the line exactly if that row is as usual. -/
theorem exists_rowNode (within : f.Within) {row : TableRow} (something : row.cells ≠ []) :
    ∃ node, (rowNode f row).outcome.1 = .ok node ∧
      ∀ content, ReadFrom (f.lines.line row.line) row.cells content →
        ((node.children.map Node.span = (List.range row.cells.length).map fun k =>
            (readCell (f.lines.line row.line) content k).map (partSpan (f.lines.start row.line))) ↔
          RowAlike (f.lines.line row.line) content row.cells.length) := by
  have settled := rowNode_spans within row []
  change Settles _ _ (rowNode f row).outcome.1 at settled
  cases ended : (rowNode f row).outcome.1 with
  | error e =>
      rw [ended] at settled
      cases settled
  | ok node =>
      rw [ended] at settled
      change node.children.map Node.span = _ at settled
      refine ⟨node, rfl, fun content readFrom => ?_⟩
      have noBar : '|' ∉ (f.lines.line row.line).take content := fun isBar =>
        absurd (readFrom.marks _ isBar) (by decide)
      have width := List.length_pos_of_ne_nil something
      rw [settled, List.map_inj_left, ← locatedCell_eq_iff readFrom.inLine noBar width]
      simp only [List.mem_range, (Option.map_injective (partSpan_injective _)).eq_iff]

/-- A fragment that has a line with something in it stands in its source. -/
theorem within_of_line {source : Text} {start stop i : Nat} {whole : Bool}
    (filled : (Fragment.between source start stop whole).lines.line i ≠ []) :
    (Fragment.between source start stop whole).Within := by
  obtain ⟨before, after, parts, placed⟩ := Fragment.line_standsAt filled
  have base := SourceLines.base_le_start (Fragment.between source start stop whole).lines i
  have size := congrArg List.length parts
  rw [List.length_append, List.length_append, placed] at size
  change start ≤ _ at base
  exact Fragment.between_within (by omega) stop whole

/-- Wherever a row of a table is read from, the nodes of its cells have the spans of the cells there
exactly if the row is as usual. -/
theorem rowNode_cells_iff {source : Text} {start stop : Nat} {whole : Bool} {found : List Block}
    {block : Block} {lines : LineRange} {alignments : List Markdown.Alignment} {header row : TableRow}
    {rows : List TableRow}
    (read : Markdown.blocks (Fragment.between source start stop whole).text = .ok found)
    (member : block ∈ found) (holds : Block.Holds (.table lines alignments header rows) block)
    (isRow : row ∈ header :: rows) :
    let f := Fragment.between source start stop whole
    let text := f.lines.line row.line
    source.StandsAt text (f.lines.start row.line) ∧ (∃ content, ReadFrom text row.cells content) ∧
      ∃ node, (rowNode f row).outcome.1 = .ok node ∧
        ∀ content, ReadFrom text row.cells content →
          ((node.children.map Node.span = (List.range row.cells.length).map fun k =>
              (readCell text content k).map (partSpan (f.lines.start row.line))) ↔
            RowAlike text content row.cells.length) := by
  intro f text
  obtain ⟨marks, rest, isText, areMarks, filled, something, cells⟩ :=
    Markdown.exists_marks_of_row start read member holds isRow
  change text = _ at isText
  have present : text ≠ [] := by
    rw [isText]
    exact List.append_ne_nil_of_right_ne_nil marks filled
  exact ⟨Fragment.line_standsAt present, ⟨_, readFrom_of_marks isText areMarks cells⟩,
    exists_rowNode (within_of_line present) something⟩

/-- The header of a table in a list item, with a bar in its first cell and an empty second cell. -/
theorem rowNode_cells_in_item :
    let source := Text.ofString "- x\n\n  | a \\| b | |\n  |---|---|"
    let f := Fragment.between source 0 source.length true
    ∃ node, (rowNode f ⟨2, [Text.ofString "a | b", []]⟩).outcome.1 = .ok node ∧
      node.children.map Node.span = (List.range 2).map fun k =>
        (readCell (f.lines.line 2) 2 k).map (partSpan (f.lines.start 2)) := by
  intro source f
  have read : Markdown.blocks f.text = .ok [.list ⟨0, 4⟩ none [.item ⟨0, 4⟩
      [.paragraph ⟨0, 1⟩ false ['x'],
        .table ⟨2, 4⟩ [.none, .none] ⟨2, [Text.ofString "a | b", []]⟩ []]]] := by
    decide +kernel
  have holds : Block.Holds (.table ⟨2, 4⟩ [.none, .none] ⟨2, [Text.ofString "a | b", []]⟩ [])
      (.list ⟨0, 4⟩ none [.item ⟨0, 4⟩ [.paragraph ⟨0, 1⟩ false ['x'],
        .table ⟨2, 4⟩ [.none, .none] ⟨2, [Text.ofString "a | b", []]⟩ []]]) :=
    .inside List.mem_cons_self (.inside (List.mem_cons_of_mem _ List.mem_cons_self) .here)
  have readFrom : ReadFrom (f.lines.line 2) [Text.ofString "a | b", []] 2 := by
    decide +kernel
  have alike : RowAlike (f.lines.line 2) 2 2 := by
    decide +kernel
  obtain ⟨-, -, node, ended, cells⟩ :=
    rowNode_cells_iff read List.mem_cons_self holds List.mem_cons_self
  exact ⟨node, ended, (cells 2 readFrom).mpr alike⟩

/-- Not every cell of a row gets its own text. The mark of this block quote takes the place of the
first cell. -/
theorem not_forall_rowNode_cells :
    ¬ ∀ (source : Text) (start stop content : Nat) (whole : Bool) (found : List Block)
        (block : Block) (lines : LineRange) (alignments : List Markdown.Alignment) (header row : TableRow)
        (rows : List TableRow),
      Markdown.blocks (Fragment.between source start stop whole).text = .ok found →
      block ∈ found → Block.Holds (.table lines alignments header rows) block →
      row ∈ header :: rows →
      ReadFrom ((Fragment.between source start stop whole).lines.line row.line) row.cells content →
      ∃ node, (rowNode (Fragment.between source start stop whole) row).outcome.1 = .ok node ∧
        node.children.map Node.span = (List.range row.cells.length).map fun k =>
          (readCell ((Fragment.between source start stop whole).lines.line row.line) content k).map
            (partSpan ((Fragment.between source start stop whole).lines.start row.line)) := by
  intro always
  have read : Markdown.blocks
      (Fragment.between (Text.ofString "> | a | b |\n> |---|---|") 0 23 true).text =
      .ok [.blockquote ⟨0, 2⟩ [.table ⟨0, 2⟩ [.none, .none] ⟨0, [['a'], ['b']]⟩ []]] := by
    decide +kernel
  obtain ⟨node, ended, cells⟩ := always _ 0 23 2 true _ _ _ _ _ ⟨0, [['a'], ['b']]⟩ _ read
    List.mem_cons_self (.inside List.mem_cons_self .here) List.mem_cons_self (by decide +kernel)
  have other : (match (rowNode
        (Fragment.between (Text.ofString "> | a | b |\n> |---|---|") 0 23 true)
        ⟨0, [['a'], ['b']]⟩).outcome.1 with
      | .ok node => node.children.map Node.span
      | .error _ => []) = [some ⟨0, 1⟩, some ⟨4, 5⟩] := by
    decide +kernel
  rw [ended] at other
  have own : ((List.range 2).map fun k => (readCell
        ((Fragment.between (Text.ofString "> | a | b |\n> |---|---|") 0 23 true).lines.line 0)
        2 k).map (partSpan 0)) = [some ⟨4, 5⟩, some ⟨8, 9⟩] := by
    decide +kernel
  have both := other.symm.trans (cells.trans own)
  exact absurd both (by decide)

end MdxLocalization.Document
