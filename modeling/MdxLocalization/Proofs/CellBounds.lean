import MdxLocalization.Proofs.FragmentNesting

/-!
# Two ways to cut a row into cells

A row of a table is cut at its bars twice. Where it is read, a bar counts unless a backslash stands
directly before it. Where its cells are located, backslashes escape each other too, so that a bar
behind two of them counts. The second way cuts the pieces of the first way again, and where it does,
what it finds is no longer the cell.
-/

namespace MdxLocalization.Document

open Fragment (cellBounds cellBounds_nil cellBounds_cons)

variable {text t : Text} {start position : Nat} {escaped : Bool} {r : Region}

/-- The pieces of a row between bars that no backslash stands directly before; `escaped` tells
whether one does. `start` is where the current piece starts and `position` where the text starts. -/
def barBounds (start position : Nat) (escaped : Bool) : Text → List Region
  | [] => [(start, position)]
  | c :: rest =>
    if c = '|' && !escaped then
      (start, position) :: barBounds (position + 1) (position + 1) false rest
    else barBounds start (position + 1) (c == '\\') rest

/-- Whether a text has a bar that no backslash escapes, where backslashes escape each other too. -/
def hasOpenBar (escaped : Bool) : Text → Bool
  | [] => false
  | c :: rest => (c = '|' && !escaped) || hasOpenBar (c == '\\' && !escaped) rest

/-- The cells that are located in a piece of a line. -/
def subBounds (text : Text) (r : Region) : List Region :=
  cellBounds r.1 r.1 false (Text.slice text r.1 r.2)

/-! ### Pieces -/

theorem barBounds_nil (start position : Nat) (escaped : Bool) :
    barBounds start position escaped [] = [(start, position)] := rfl

theorem barBounds_cons (start position : Nat) (escaped : Bool) (c : Char) (rest : Text) :
    barBounds start position escaped (c :: rest) =
      if c = '|' && !escaped then
        (start, position) :: barBounds (position + 1) (position + 1) false rest
      else barBounds start (position + 1) (c == '\\') rest := rfl

theorem exists_barBounds (start position : Nat) (escaped : Bool) (t : Text) :
    ∃ stop rest, barBounds start position escaped t = (start, stop) :: rest ∧ position ≤ stop ∧
      stop ≤ position + t.length := by
  induction t generalizing position escaped with
  | nil =>
      exact ⟨position, [], rfl, Nat.le_refl _, Nat.le_refl _⟩
  | cons c t hypothesis =>
      rw [barBounds_cons]
      split
      · exact ⟨position, _, rfl, Nat.le_refl _, Nat.le_add_right _ _⟩
      · obtain ⟨stop, rest, pieces, after, before⟩ := hypothesis (position + 1) (c == '\\')
        rw [List.length_cons]
        exact ⟨stop, rest, pieces, by omega, by omega⟩

theorem barBounds_within (begun : start ≤ position) :
    ∀ r ∈ barBounds start position escaped t,
      r.1 ≤ r.2 ∧ r.2 ≤ position + t.length ∧ (r.1 = start ∨ position < r.1) := by
  induction t generalizing start position escaped with
  | nil =>
      intro r member
      rw [barBounds_nil, List.mem_singleton] at member
      subst member
      exact ⟨begun, Nat.le_refl _, Or.inl rfl⟩
  | cons c t hypothesis =>
      intro r member
      rw [List.length_cons]
      rw [barBounds_cons] at member
      split at member
      · rcases List.mem_cons.mp member with rfl | later
        · exact ⟨begun, Nat.le_add_right _ _, Or.inl rfl⟩
        · have bounds := hypothesis (Nat.le_refl _) r later
          omega
      · have bounds := hypothesis (Nat.le_succ_of_le begun) r member
        omega

theorem prefix_drop_succ {c : Char} (stands : c :: t <+: text.drop position) :
    text[position]? = some c ∧ t <+: text.drop (position + 1) := by
  obtain ⟨rest, parts⟩ := stands
  constructor
  · rw [← List.head?_drop, ← parts]
    rfl
  · rw [← List.drop_drop, ← parts]
    exact List.prefix_append _ _

theorem slice_of_leading {stop : Nat} (stands : t <+: text.drop position)
    (inside : stop ≤ position + t.length) :
    Text.slice text position stop = t.take (stop - position) := by
  obtain ⟨rest, parts⟩ := stands
  rw [Text.slice, ← parts, List.take_append_of_le_length (by omega)]

/-- In a piece of a row, a backslash stands directly before every bar. -/
theorem escaped_of_mem_barBounds (begun : start ≤ position) (stands : t <+: text.drop position)
    (member : r ∈ barBounds start position escaped t) {bar : Nat} (after : position ≤ bar)
    (inside : r.1 ≤ bar ∧ bar < r.2) (isBar : text[bar]? = some '|') :
    (bar = position ∧ escaped = true) ∨ (r.1 < bar ∧ text[bar - 1]? = some '\\') := by
  induction t generalizing start position escaped with
  | nil =>
      rw [barBounds_nil, List.mem_singleton] at member
      subst member
      dsimp only at inside
      omega
  | cons c t hypothesis =>
      obtain ⟨here, onward⟩ := prefix_drop_succ stands
      rw [barBounds_cons] at member
      split at member
      · rcases List.mem_cons.mp member with rfl | later
        · dsimp only at inside
          omega
        · have bounds := barBounds_within (Nat.le_refl _) r later
          rcases hypothesis (Nat.le_refl _) onward later (by omega) with ⟨-, no⟩ | found
          · cases no
          · exact Or.inr found
      · rename_i noCut
        rcases Nat.eq_or_lt_of_le after with rfl | behind
        · rw [here, Option.some.injEq] at isBar
          refine Or.inl ⟨rfl, ?_⟩
          simpa [isBar] using noCut
        · have bounds := barBounds_within (Nat.le_succ_of_le begun) r member
          rcases hypothesis (Nat.le_succ_of_le begun) onward member behind with ⟨rfl, slash⟩ | found
          · refine Or.inr ⟨by omega, ?_⟩
            rw [Nat.succ_sub_one, here, eq_of_beq slash]
          · exact Or.inr found

/-! ### Cutting again -/

theorem hasOpenBar_cons (escaped : Bool) (c : Char) (rest : Text) :
    hasOpenBar escaped (c :: rest) =
      ((c = '|' && !escaped) || hasOpenBar (c == '\\' && !escaped) rest) := rfl

theorem cellBounds_closed (closed : hasOpenBar escaped t = false) :
    cellBounds start position escaped t = [(start, position + t.length)] := by
  induction t generalizing position escaped with
  | nil =>
      rfl
  | cons c t hypothesis =>
      rw [hasOpenBar_cons, Bool.or_eq_false_iff] at closed
      rw [cellBounds_cons, if_neg (by rw [closed.1]; decide), hypothesis closed.2, List.length_cons,
        Nat.add_assoc, Nat.add_comm 1]

theorem exists_cellBounds_open (opened : hasOpenBar escaped t = true) :
    ∃ bar more, cellBounds start position escaped t = (start, bar) :: more ∧ position ≤ bar ∧
      bar < position + t.length ∧ t[bar - position]? = some '|' := by
  induction t generalizing position escaped with
  | nil =>
      cases opened
  | cons c t hypothesis =>
      rw [cellBounds_cons, List.length_cons]
      split
      · rename_i isBar
        rw [Bool.and_eq_true, decide_eq_true_eq] at isBar
        refine ⟨position, _, rfl, Nat.le_refl _, by omega, ?_⟩
        rw [Nat.sub_self, isBar.1]
        rfl
      · rename_i noBar
        rw [hasOpenBar_cons, Bool.or_eq_true] at opened
        obtain ⟨bar, more, cut, after, before, isBar⟩ := hypothesis (opened.resolve_left noBar)
        refine ⟨bar, more, cut, by omega, by omega, ?_⟩
        rw [show bar - position = bar - (position + 1) + 1 by omega]
        exact isBar

/-- The located cells of a row are those of its pieces, one piece after the other. The first piece
may have begun before. -/
theorem cellBounds_refines {start' stop : Nat} {escaped' : Bool} {rest : List Region}
    (stands : t <+: text.drop position) (weaker : escaped = true → escaped' = true)
    (pieces : barBounds start' position escaped' t = (start', stop) :: rest) :
    cellBounds start position escaped t =
      cellBounds start position escaped (t.take (stop - position)) ++
        rest.flatMap (subBounds text) := by
  induction t generalizing start start' position escaped escaped' stop rest with
  | nil =>
      rw [barBounds_nil] at pieces
      cases pieces
      rw [List.take_nil, List.flatMap_nil, List.append_nil]
  | cons c t hypothesis =>
      obtain ⟨-, onward⟩ := prefix_drop_succ stands
      rw [barBounds_cons] at pieces
      split at pieces
      · -- A bar that cuts where the row is read cuts here as well.
        rename_i isBar
        rw [Bool.and_eq_true, Bool.not_eq_true'] at isBar
        have free : escaped = false := by
          rw [← Bool.not_eq_true]
          intro held
          rw [weaker held] at isBar
          cases isBar.2
        cases pieces
        obtain ⟨next, others, cut, -, before⟩ :=
          exists_barBounds (position + 1) (position + 1) false t
        have first : subBounds text (position + 1, next) =
            cellBounds (position + 1) (position + 1) false (t.take (next - (position + 1))) := by
          rw [subBounds, slice_of_leading onward before]
        rw [cellBounds_cons, if_pos (by rw [isBar.1, free]; rfl), Nat.sub_self, List.take_zero,
          cellBounds_nil, cut, List.flatMap_cons, first,
          hypothesis onward (fun held => held) cut]
        rfl
      · obtain ⟨next, others, cut, after, -⟩ :=
          exists_barBounds start' (position + 1) (c == '\\') t
        rw [cut] at pieces
        cases pieces
        rw [show stop - position = stop - (position + 1) + 1 by omega, List.take_succ_cons,
          cellBounds_cons, cellBounds_cons]
        split
        · rw [hypothesis onward (by simp) cut, List.cons_append]
        · exact hypothesis onward (fun held => (Bool.and_eq_true _ _ ▸ held).1) cut

/-! ### Cells without the white space around them -/

/-- A piece of a line without the white space around it, if there is anything else in it. -/
def trimmed? (text : Text) (r : Region) : Option Region :=
  let cell := Text.slice text r.1 r.2
  if Text.isBlankText cell then none
  else some (r.1 + Text.countWhile Text.isBlank cell, r.1 + (Text.trimEnd cell).length)

/-- A text that is not blank is something solid at both ends with white space around it. -/
theorem exists_solid_parts (filled : Text.isBlankText t = false) :
    ∃ lead solid tail, t = lead ++ (solid ++ tail) ∧ (∀ c ∈ lead, Text.isBlank c = true) ∧
      (∀ c ∈ tail, Text.isBlank c = true) ∧ solid ≠ [] ∧
      (∀ c ∈ solid.head?, Text.isBlank c = false) ∧
      ∀ c ∈ solid.getLast?, Text.isBlank c = false := by
  obtain ⟨tail, parts, dropped⟩ := Text.exists_dropped Text.isBlank (t.dropWhile Text.isBlank)
  have whole := List.takeWhile_append_dropWhile (p := Text.isBlank) (l := t)
  have leads : ∀ c ∈ t.takeWhile Text.isBlank, Text.isBlank c = true :=
    List.all_eq_true.mp List.all_takeWhile
  have begins := List.head?_dropWhile_not Text.isBlank t
  have something : Text.dropEndWhile Text.isBlank (t.dropWhile Text.isBlank) ≠ [] := by
    intro nothing
    rw [nothing, List.nil_append] at parts
    rw [← parts] at whole
    have blank : Text.isBlankText t = true := by
      rw [← whole]
      exact List.all_eq_true.mpr (List.forall_mem_append.mpr ⟨leads, dropped⟩)
    rw [blank] at filled
    cases filled
  refine ⟨_, _, tail, by rw [parts, whole], leads, dropped, something, fun c isHead => ?_,
    Text.getLast?_dropEndWhile _ _⟩
  rw [← parts, List.head?_append_of_ne_nil _ something, Option.mem_def.mp isHead] at begins
  exact begins

theorem trimmed?_of_parts {lead solid tail : Text}
    (cut : Text.slice text r.1 r.2 = lead ++ (solid ++ tail))
    (leads : ∀ c ∈ lead, Text.isBlank c = true) (tails : ∀ c ∈ tail, Text.isBlank c = true)
    (something : solid ≠ []) (begins : ∀ c ∈ solid.head?, Text.isBlank c = false)
    (ends : ∀ c ∈ solid.getLast?, Text.isBlank c = false) :
    trimmed? text r = some (r.1 + lead.length, r.1 + lead.length + solid.length) := by
  have filled : Text.isBlankText (lead ++ (solid ++ tail)) = false := by
    obtain ⟨c, rest, rfl⟩ := List.exists_cons_of_ne_nil something
    refine List.all_eq_false.mpr ⟨c, by simp, ?_⟩
    rw [begins c rfl]
    decide
  have start : Text.countWhile Text.isBlank (lead ++ (solid ++ tail)) = lead.length :=
    Text.countWhile_append leads (by rwa [List.head?_append_of_ne_nil _ something])
  have stop : Text.trimEnd (lead ++ (solid ++ tail)) = lead ++ solid := by
    rw [Text.trimEnd, ← List.append_assoc]
    refine Text.dropEndWhile_append ?_ tails
    rwa [List.getLast?_append_of_ne_nil _ something]
  unfold trimmed?
  dsimp only
  rw [cut, filled, start, stop, List.length_append, Nat.add_assoc]
  rfl

theorem trimmed?_eq_none_iff :
    trimmed? text r = none ↔ Text.isBlankText (Text.slice text r.1 r.2) = true := by
  unfold trimmed?
  dsimp only
  split
  · rename_i blank
    simp [blank]
  · rename_i filled
    simp [filled]

/-- What is left of a piece stands in it, and all in the piece that is no white space stands in what
is left. -/
theorem trimmed?_bounds {a b : Nat} (found : trimmed? text r = some (a, b)) :
    r.1 ≤ a ∧ b ≤ r.2 ∧ ∀ i c, r.1 ≤ i → i < r.2 → text[i]? = some c → Text.isBlank c = false →
      a ≤ i ∧ i < b := by
  cases filled : Text.isBlankText (Text.slice text r.1 r.2) with
  | true =>
      rw [trimmed?_eq_none_iff.mpr filled] at found
      cases found
  | false =>
      obtain ⟨lead, solid, tail, cut, leads, tails, something, begins, ends⟩ :=
        exists_solid_parts filled
      rw [trimmed?_of_parts cut leads tails something begins ends, Option.some.injEq,
        Prod.mk.injEq] at found
      obtain ⟨rfl, rfl⟩ := found
      have length := congrArg List.length cut
      rw [Text.length_slice, List.length_append, List.length_append] at length
      have filled' := List.length_pos_of_ne_nil something
      refine ⟨Nat.le_add_right _ _, by omega, fun i c after before isThere isSolid => ?_⟩
      rw [show i = r.1 + (i - r.1) by omega,
        ← Text.getElem?_slice text (show r.1 + (i - r.1) < r.2 by omega), cut] at isThere
      constructor
      · by_contra early
        rw [List.getElem?_append_left (by omega)] at isThere
        rw [leads c (List.mem_of_getElem? isThere)] at isSolid
        cases isSolid
      · by_contra late
        rw [← List.append_assoc, List.getElem?_append_right (by rw [List.length_append]; omega)]
          at isThere
        rw [tails c (List.mem_of_getElem? isThere)] at isSolid
        cases isSolid

theorem trimmed?_lt {a b : Nat} (found : trimmed? text r = some (a, b)) : a < b := by
  cases filled : Text.isBlankText (Text.slice text r.1 r.2) with
  | true =>
      rw [trimmed?_eq_none_iff.mpr filled] at found
      cases found
  | false =>
      obtain ⟨lead, solid, tail, cut, leads, tails, something, begins, ends⟩ :=
        exists_solid_parts filled
      rw [trimmed?_of_parts cut leads tails something begins ends, Option.some.injEq,
        Prod.mk.injEq] at found
      have filled' := List.length_pos_of_ne_nil something
      omega

theorem exists_trimmed? (r : Region) {i : Nat} {c : Char} (after : r.1 ≤ i) (before : i < r.2)
    (isThere : text[i]? = some c) (isSolid : Text.isBlank c = false) :
    ∃ a b, trimmed? text r = some (a, b) ∧ a ≤ i ∧ i < b := by
  cases found : trimmed? text r with
  | none =>
      rw [trimmed?_eq_none_iff, Text.isBlankText, List.all_eq_true] at found
      have member : c ∈ Text.slice text r.1 r.2 := by
        refine List.mem_of_getElem? (i := i - r.1) ?_
        rw [Text.getElem?_slice text (by omega), show r.1 + (i - r.1) = i by omega, isThere]
      rw [found c member] at isSolid
      cases isSolid
  | some region =>
      obtain ⟨a, b⟩ := region
      have bounds := (trimmed?_bounds found).2.2 i c after before isThere isSolid
      exact ⟨a, b, rfl, bounds.1, bounds.2⟩

/-- White space in front of a piece and behind it makes no difference. -/
theorem trimmed?_widen {lower first last upper : Nat} (before : lower ≤ first)
    (inOrder : first ≤ last) (behind : last ≤ upper)
    (blankBefore : Text.isBlankText (Text.slice text lower first) = true)
    (blankBehind : Text.isBlankText (Text.slice text last upper) = true) :
    trimmed? text (lower, upper) = trimmed? text (first, last) := by
  have parts : Text.slice text lower upper = Text.slice text lower first ++
      (Text.slice text first last ++ Text.slice text last upper) := by
    rw [Text.slice_append_slice text inOrder behind,
      Text.slice_append_slice text before (Nat.le_trans inOrder behind)]
  cases filled : Text.isBlankText (Text.slice text first last) with
  | true =>
      rw [(trimmed?_eq_none_iff (r := (first, last))).mpr filled, trimmed?_eq_none_iff]
      simp only [Text.isBlankText] at *
      rw [parts, List.all_append, List.all_append, blankBefore, filled, blankBehind]
      rfl
  | false =>
      obtain ⟨lead, solid, tail, cut, leads, tails, something, begins, ends⟩ :=
        exists_solid_parts filled
      have size : (Text.slice text lower first).length = first - lower := by
        have length := congrArg List.length cut
        have filled' := List.length_pos_of_ne_nil something
        rw [Text.length_slice, List.length_append, List.length_append] at length
        rw [Text.length_slice]
        omega
      have wider : Text.slice text lower upper = (Text.slice text lower first ++ lead) ++
          (solid ++ (tail ++ Text.slice text last upper)) := by
        rw [parts, cut]
        simp only [List.append_assoc]
      rw [trimmed?_of_parts (r := (first, last)) cut leads tails something begins ends,
        trimmed?_of_parts (r := (lower, upper)) wider
          (List.forall_mem_append.mpr ⟨List.all_eq_true.mp blankBefore, leads⟩)
          (List.forall_mem_append.mpr ⟨tails, List.all_eq_true.mp blankBehind⟩) something begins
          ends, List.length_append, size]
      rw [show lower + (first - lower + lead.length) = first + lead.length by omega]

/-! ### Comparing cell by cell -/

/-- No bar in a piece of a line is open, so that it is not cut again. -/
def Uncut (text : Text) (r : Region) : Prop := hasOpenBar false (Text.slice text r.1 r.2) = false

instance (text : Text) (r : Region) : Decidable (Uncut text r) :=
  inferInstanceAs (Decidable (_ = _))

/-- What stands in a place of a list of cells, some of which are empty. -/
def cellAt (cells : List (Option Region)) (k : Nat) : Option Region := (cells[k]?).join

/-- A piece that is not cut again gives itself. One that is cut gives another cell first, and
neither of the two is empty. -/
structure Comparable (text : Text) (r : Region) : Prop where
  uncut : Uncut text r → subBounds text r = [r]
  cut : ¬ Uncut text r → ∃ first more, subBounds text r = first :: more ∧
    trimmed? text first ≠ none ∧ trimmed? text r ≠ none ∧ trimmed? text first ≠ trimmed? text r

theorem comparable_of_mem_barBounds (stands : t <+: text.drop position)
    (member : r ∈ barBounds position position false t) : Comparable text r := by
  have bounds := barBounds_within (Nat.le_refl position) r member
  have starts : position ≤ r.1 := by omega
  have length : t.length ≤ text.length - position := by
    rw [← List.length_drop]
    exact stands.length_le
  have size : (Text.slice text r.1 r.2).length = r.2 - r.1 := by
    rw [Text.length_slice]
    omega
  constructor
  · intro uncut
    rw [subBounds, cellBounds_closed uncut, size, Nat.add_sub_cancel' bounds.1]
  · intro cut
    obtain ⟨bar, more, isCut, after, before, isBar⟩ :
        ∃ bar more, subBounds text r = (r.1, bar) :: more ∧ r.1 ≤ bar ∧ _ ∧ _ :=
      exists_cellBounds_open (Bool.not_eq_false _ ▸ cut)
    rw [size] at before
    rw [Text.getElem?_slice text (by omega), Nat.add_sub_cancel' after] at isBar
    obtain ⟨-, no⟩ | ⟨later, isSlash⟩ := escaped_of_mem_barBounds (Nat.le_refl position) stands
      member (by omega) ⟨after, by omega⟩ isBar
    · cases no
    · obtain ⟨a, b, first, -, -⟩ := exists_trimmed? (r.1, bar)
        (i := bar - 1) (by dsimp only; omega) (by dsimp only; omega) isSlash rfl
      obtain ⟨a', b', whole, -, behind⟩ := exists_trimmed? r after (by omega)
        isBar rfl
      refine ⟨_, more, isCut, by simp [first], by simp [whole], ?_⟩
      rw [first, whole]
      intro same
      cases same
      have stops := (trimmed?_bounds first).2.1
      dsimp only at stops
      omega

variable {pieces : List Region}

theorem uncut_of_trimmed?_eq_none (comparable : Comparable text r) (none : trimmed? text r = none) :
    Uncut text r := by
  by_contra cut
  obtain ⟨-, -, -, -, some, -⟩ := comparable.cut cut
  exact some none

@[simp] theorem cellAt_nil (k : Nat) : cellAt [] k = none := rfl

@[simp] theorem cellAt_cons_zero (cell : Option Region) (cells : List (Option Region)) :
    cellAt (cell :: cells) 0 = cell := by
  cases cell <;> rfl

@[simp] theorem cellAt_cons_succ (cell : Option Region) (cells : List (Option Region)) (k : Nat) :
    cellAt (cell :: cells) (k + 1) = cellAt cells k := rfl

/-- The cells of pieces are those of the pieces cut again, as far as no piece is cut again. -/
theorem cellAt_eq_iff_uncut (comparable : ∀ r ∈ pieces, Comparable text r) (width : Nat) :
    (∀ k < width, cellAt ((pieces.flatMap (subBounds text)).map (trimmed? text)) k =
        cellAt (pieces.map (trimmed? text)) k) ↔
      ∀ k < width, ∀ r ∈ pieces[k]?, Uncut text r := by
  induction pieces generalizing width with
  | nil =>
      simp
  | cons r rest hypothesis =>
      obtain ⟨here, others⟩ := List.forall_mem_cons.mp comparable
      cases width with
      | zero =>
          simp
      | succ width =>
          rw [Nat.forall_lt_succ_left, Nat.forall_lt_succ_left, List.flatMap_cons]
          by_cases uncut : Uncut text r
          · rw [here.uncut uncut]
            simp only [List.singleton_append, List.map_cons, cellAt_cons_zero, cellAt_cons_succ,
              List.getElem?_cons_zero, List.getElem?_cons_succ, Option.mem_def, Option.some.injEq,
              forall_eq', uncut, true_and]
            exact hypothesis others width
          · obtain ⟨first, more, isCut, -, -, apart⟩ := here.cut uncut
            rw [isCut]
            simp [uncut, apart]

/-- Where an empty cell comes before the others, all of them have to be empty. -/
theorem cellAt_eq_iff_empty (comparable : ∀ r ∈ pieces, Comparable text r) (width : Nat) :
    (∀ k < width, cellAt ((pieces.flatMap (subBounds text)).map (trimmed? text)) k =
        cellAt (none :: pieces.map (trimmed? text)) k) ↔
      ∀ k < width, cellAt (pieces.map (trimmed? text)) k = none := by
  induction pieces generalizing width with
  | nil =>
      refine iff_of_true (fun k _ => ?_) (by simp)
      cases k <;> rfl
  | cons r rest hypothesis =>
      obtain ⟨here, others⟩ := List.forall_mem_cons.mp comparable
      cases width with
      | zero =>
          simp
      | succ width =>
          rw [Nat.forall_lt_succ_left, Nat.forall_lt_succ_left, List.flatMap_cons]
          by_cases uncut : Uncut text r
          · rw [here.uncut uncut]
            simp only [List.singleton_append, List.map_cons, cellAt_cons_zero, cellAt_cons_succ]
            refine and_congr_right fun empty => ?_
            rw [empty]
            exact hypothesis others width
          · obtain ⟨first, more, isCut, some, whole, -⟩ := here.cut uncut
            rw [isCut]
            simp [some, whole]

/-! ### White space around a row -/

theorem isBlankText_cons {c : Char} {t : Text} :
    Text.isBlankText (c :: t) = true ↔ Text.isBlank c = true ∧ Text.isBlankText t = true := by
  rw [Text.isBlankText, List.all_cons, Bool.and_eq_true]
  rfl

theorem ne_of_isBlank {c d : Char} (blank : Text.isBlank c = true)
    (solid : Text.isBlank d = false) : c ≠ d := by
  rintro rfl
  rw [blank] at solid
  cases solid

theorem hasOpenBar_of_isBlankText (blank : Text.isBlankText t = true) (escaped : Bool) :
    hasOpenBar escaped t = false := by
  induction t generalizing escaped with
  | nil =>
      rfl
  | cons c t hypothesis =>
      obtain ⟨here, others⟩ := isBlankText_cons.mp blank
      rw [hasOpenBar_cons, hypothesis others, Bool.or_false,
        decide_eq_false (ne_of_isBlank here rfl), Bool.false_and]

theorem cellBounds_append_of_isBlankText {lead : Text} (blank : Text.isBlankText lead = true)
    (t : Text) (start position : Nat) :
    cellBounds start position false (lead ++ t) =
      cellBounds start (position + lead.length) false t := by
  induction lead generalizing position with
  | nil =>
      rfl
  | cons c lead hypothesis =>
      obtain ⟨here, others⟩ := isBlankText_cons.mp blank
      have noSlash : (c == '\\') = false := beq_eq_false_iff_ne.mpr (ne_of_isBlank here rfl)
      rw [List.cons_append, cellBounds_cons, decide_eq_false (ne_of_isBlank here rfl),
        Bool.false_and, if_neg (by decide), noSlash, Bool.false_and, hypothesis others,
        List.length_cons, Nat.add_assoc, Nat.add_comm 1]

/-- The cells of a row are the same with white space around it. -/
theorem trimmed?_cellBounds {tail : Text} {start' : Nat} (stands : t ++ tail <+: text.drop position)
    (blankTail : Text.isBlankText tail = true) (before : start' ≤ start) (begun : start ≤ position)
    (blank : Text.isBlankText (Text.slice text start' start) = true) :
    (cellBounds start' position escaped (t ++ tail)).map (trimmed? text) =
      (cellBounds start position escaped t).map (trimmed? text) := by
  have nothing (i : Nat) : Text.isBlankText (Text.slice text i i) = true := by
    rw [Text.slice, Nat.sub_self, List.take_zero]
    rfl
  induction t generalizing start start' position escaped with
  | nil =>
      rw [List.nil_append] at stands
      have behind : Text.slice text position (position + tail.length) = tail := by
        rw [slice_of_leading stands (Nat.le_refl _), Nat.add_sub_cancel_left, List.take_length]
      rw [List.nil_append, cellBounds_closed (hasOpenBar_of_isBlankText blankTail escaped),
        cellBounds_nil, List.map_singleton, List.map_singleton,
        trimmed?_widen before begun (Nat.le_add_right _ _) blank (behind.symm ▸ blankTail)]
  | cons c t hypothesis =>
      obtain ⟨-, onward⟩ := prefix_drop_succ stands
      rw [List.cons_append, cellBounds_cons, cellBounds_cons]
      split
      · rw [List.map_cons, List.map_cons, hypothesis onward (Nat.le_refl _) (Nat.le_refl _)
          (nothing _), trimmed?_widen before begun (Nat.le_refl _) blank (nothing _)]
      · exact hypothesis onward before (Nat.le_succ_of_le begun) blank

/-- The first cell of a row goes on at least to its first bar. -/
theorem exists_cellBounds_append {lead : Text} (noBar : '|' ∉ lead) (t : Text)
    (start position : Nat) (escaped : Bool) :
    ∃ stop more, cellBounds start position escaped (lead ++ t) = (start, stop) :: more ∧
      position + lead.length ≤ stop := by
  induction lead generalizing position escaped with
  | nil =>
      induction t generalizing position escaped with
      | nil =>
          exact ⟨position, [], rfl, Nat.le_refl _⟩
      | cons c t hypothesis =>
          rw [List.nil_append, cellBounds_cons]
          split
          · exact ⟨position, _, rfl, Nat.le_refl _⟩
          · obtain ⟨stop, more, cells, after⟩ := hypothesis (position + 1) (c == '\\' && !escaped)
            exact ⟨stop, more, cells, Nat.le_of_succ_le after⟩
  | cons c lead hypothesis =>
      obtain ⟨stop, more, cells, after⟩ := hypothesis (List.not_mem_of_not_mem_cons noBar)
        (position + 1) (c == '\\' && !escaped)
      refine ⟨stop, more, ?_, ?_⟩
      · rw [List.cons_append, cellBounds_cons,
          decide_eq_false (List.ne_of_not_mem_cons noBar).symm, Bool.false_and, if_neg (by decide),
          cells]
      · rw [List.length_cons]
        omega

end MdxLocalization.Document
