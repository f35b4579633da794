import Mathlib.Algebra.BigOperators.Group.List.Basic
import Mathlib.Algebra.Ring.Int.Defs
import MdxLocalization.Proofs.LinePositions
import MdxLocalization.Proofs.Patching
import MdxLocalization.Proofs.Placement

/-!
# Patching in two steps

Changes that a text accepts may be applied in two parts, one after the other, whichever way they are
parted. The first part lengthens or shortens the text in front of the changes that are left, so
their spans are moved along first: each by what those changes of the first part that end at or
before its start add to the text.

The changes of both parts take turns in the text. Going through them from front to back, the text
after the first part consists of what is finished and of the content behind a cursor with the rest
of the first part woven in; the changes that are left are those behind the cursor, moved by the
difference between the two places. This is kept by a change of either part.
-/

namespace MdxLocalization.Patch

variable {transform : Text → Text} {content : Text}

/-! ### Moved changes -/

/-- What a change adds to the length of a text. -/
def growth (transform : Text → Text) (c : Change) : Int :=
  (transform c.text).length - c.span.length

/-- How far applied changes move a position: what those of them add that end at or before it. -/
def displacement (transform : Text → Text) (applied : List Change) (position : Int) : Int :=
  ((applied.filter fun a => a.span.stop ≤ position).map (growth transform)).sum

/-- The change with its span moved by a distance. -/
def moveBy (distance : Int) (c : Change) : Change := { c with span := c.span.shiftBy distance }

/-- The change for the text in which others have been applied. -/
def rebase (transform : Text → Text) (applied : List Change) (c : Change) : Change :=
  moveBy (displacement transform applied c.span.start) c

theorem displacement_perm {applied other : List Change} (same : applied.Perm other)
    (position : Int) :
    displacement transform applied position = displacement transform other position :=
  ((same.filter _).map _).sum_eq

/-- Changes behind a position do not move it. -/
theorem displacement_eq_zero {applied : List Change} {position : Int}
    (behind : ∀ a ∈ applied, position < a.span.stop) :
    displacement transform applied position = 0 := by
  unfold displacement
  rw [List.filter_eq_nil_iff.mpr fun a member => by simpa using behind a member]
  rfl

theorem displacement_cons {applied : List Change} {c : Change} {position : Int}
    (before : c.span.stop ≤ position) :
    displacement transform (c :: applied) position =
      growth transform c + displacement transform applied position := by
  unfold displacement
  rw [List.filter_cons_of_pos (by simpa using before), List.map_cons, List.sum_cons]

/-- The changes that are left, moved by a distance and by the applied changes. -/
def moved (transform : Text → Text) (distance : Int) (applied left : List Change) : List Change :=
  left.map fun c => moveBy (distance + displacement transform applied c.span.start) c

theorem moved_zero (transform : Text → Text) (applied left : List Change) :
    moved transform 0 applied left = left.map (rebase transform applied) := by
  simp [moved, rebase]

/-- A change that is applied in front of those that are left moves all of them. -/
theorem moved_cons_applied {distance : Int} {applied left : List Change} {c : Change}
    (before : ∀ b ∈ left, c.span.stop ≤ b.span.start) :
    moved transform distance (c :: applied) left =
      moved transform (distance + growth transform c) applied left := by
  refine List.map_congr_left fun b member => ?_
  rw [displacement_cons (before b member), Int.add_assoc]

/-- Only the distance moves a change in front of all those that are applied. -/
theorem moved_cons_left {distance : Int} {applied left : List Change} {c : Change}
    (behind : ∀ a ∈ applied, c.span.start < a.span.stop) :
    moved transform distance applied (c :: left) =
      moveBy distance c :: moved transform distance applied left := by
  rw [moved, List.map_cons, displacement_eq_zero behind, Int.add_zero]
  rfl

/-! ### Weaving in two steps -/

theorem Within.of_cons {lower upper : Int} {c : Change} {rest : List Change}
    (within : Within lower upper (c :: rest)) :
    (lower ≤ c.span.start ∧ c.span.start < c.span.stop ∧ c.span.stop ≤ upper) ∧
      Within c.span.stop upper rest := by
  obtain ⟨inOrder, each⟩ := within
  obtain ⟨before, others⟩ := List.pairwise_cons.mp inOrder
  refine ⟨each c List.mem_cons_self, others, fun d member => ?_⟩
  exact ⟨before d member, (each d (List.mem_cons_of_mem c member)).2⟩

theorem Within.filter {lower upper : Int} {changes : List Change}
    (within : Within lower upper changes) (keep : Change → Bool) :
    Within lower upper (changes.filter keep) :=
  ⟨within.1.filter keep, fun c member => within.2 c (List.mem_of_mem_filter member)⟩

/-- What is left, moved along and woven into the text after the first part, gives what all changes
give. `finished` is the part of that text that stands for the content in front of the cursor. -/
def WeavesOn (transform : Text → Text) (content : Text) (cursor : Nat) (finished : Text)
    (first left changes : List Change) : Prop :=
  let middle := finished ++ weave transform content cursor first
  let later := moved transform (finished.length - cursor) first left
  Within finished.length middle.length later ∧
    weave transform middle finished.length later = weave transform content cursor changes

/-- What stands in a text between the end of one part and the end of the next. -/
theorem slice_between (before between behind : Text) :
    Text.slice (before ++ (between ++ behind)) before.length (before ++ between).length =
      between := by
  simp [Text.slice]

section Steps

variable {cursor : Nat} {finished : Text} {first left changes : List Change} {c : Change}

theorem weavesOn_nil (transform : Text → Text) (content : Text) (cursor : Nat) (finished : Text) :
    WeavesOn transform content cursor finished [] [] [] := by
  refine ⟨⟨List.Pairwise.nil, by simp [moved]⟩, ?_⟩
  simp [moved, weave]

/-- A change of the first part is finished in the text after this part; the ones that are left are
moved by its growth. -/
theorem WeavesOn.applied (after : cursor ≤ c.span.start) (proper : c.span.start < c.span.stop)
    (inside : c.span.stop ≤ content.length) (behind : ∀ b ∈ left, c.span.stop ≤ b.span.start)
    (weaves : WeavesOn transform content c.span.stop.toNat
      (finished ++ (Text.slice content cursor c.span.start.toNat ++ transform c.text))
      first left changes) :
    WeavesOn transform content cursor finished (c :: first) left (c :: changes) := by
  let replaced := Text.slice content cursor c.span.start.toNat ++ transform c.text
  obtain ⟨within, woven⟩ :
    WeavesOn transform content c.span.stop.toNat (finished ++ replaced) first left changes := weaves
  have middle : finished ++ weave transform content cursor (c :: first) =
      finished ++ (replaced ++ weave transform content c.span.stop.toNat first) := by
    simp only [weave_cons, List.append_assoc, replaced]
  have distance : ((finished ++ replaced).length : Int) - c.span.stop.toNat =
      finished.length - cursor + growth transform c := by
    simp only [replaced, List.length_append, Text.length_slice, growth, Span.length]
    omega
  have longer : finished.length ≤ (finished ++ replaced).length := by
    rw [List.length_append]
    omega
  rw [distance, ← moved_cons_applied behind, List.append_assoc] at within woven
  unfold WeavesOn
  rw [middle]
  refine ⟨within.mono (by omega) (Int.le_refl _), ?_⟩
  have starts : ∀ b ∈ moved transform (finished.length - cursor) (c :: first) left,
      (finished ++ replaced).length ≤ b.span.start.toNat := by
    intro b member
    have := (within.2 b member).1
    omega
  rw [weave_eq_slice_append _ longer starts, slice_between, woven, weave_cons]

/-- A change that is left stands, in the text after the first part, behind the content up to it. -/
theorem WeavesOn.kept (after : cursor ≤ c.span.start) (proper : c.span.start < c.span.stop)
    (inside : c.span.stop ≤ content.length) (behind : ∀ a ∈ first, c.span.stop ≤ a.span.start ∧
      a.span.start < a.span.stop)
    (weaves : WeavesOn transform content c.span.stop.toNat
      (finished ++ Text.slice content cursor c.span.stop.toNat) first left changes) :
    WeavesOn transform content cursor finished first (c :: left) (c :: changes) := by
  let gap := Text.slice content cursor c.span.start.toNat
  let replaced := Text.slice content c.span.start.toNat c.span.stop.toNat
  have copied : Text.slice content cursor c.span.stop.toNat = gap ++ replaced :=
    (Text.slice_append_slice content (by omega) (by omega)).symm
  have gapLength : gap.length = c.span.start.toNat - cursor := by
    rw [Text.length_slice]
    omega
  have replacedLength : replaced.length = c.span.stop.toNat - c.span.start.toNat := by
    rw [Text.length_slice]
    omega
  obtain ⟨within, woven⟩ := weaves
  have middle : finished ++ weave transform content cursor first =
      finished ++ (gap ++ (replaced ++ weave transform content c.span.stop.toNat first)) := by
    have starts : ∀ a ∈ first, c.span.stop.toNat ≤ a.span.start.toNat := by
      intro a member
      have := behind a member
      omega
    rw [weave_eq_slice_append first (by omega) starts, copied, List.append_assoc]
  have distance : ((finished ++ (gap ++ replaced)).length : Int) - c.span.stop.toNat =
      finished.length - cursor := by
    simp only [List.length_append, gapLength, replacedLength]
    omega
  rw [copied, distance, List.append_assoc, List.append_assoc] at within woven
  have start : (moveBy (finished.length - cursor) c).span.start = (finished ++ gap).length := by
    simp only [moveBy, Span.shiftBy, List.length_append, gapLength]
    omega
  have stop : (moveBy (finished.length - cursor) c).span.stop =
      (finished ++ (gap ++ replaced)).length := by
    simp only [moveBy, Span.shiftBy, List.length_append, gapLength, replacedLength]
    omega
  unfold WeavesOn
  rw [middle, moved_cons_left fun a member => by have := behind a member; omega]
  constructor
  · have here : Within finished.length (finished ++ (gap ++ replaced)).length
        [moveBy (finished.length - cursor) c] := by
      refine within_single ?_ ?_ ?_ <;> simp only [start, stop, List.length_append] <;> omega
    refine here.append within ?_ ?_ <;> simp only [List.length_append] <;> omega
  · rw [weave_cons, weave_cons, start, stop, Int.toNat_natCast, Int.toNat_natCast, slice_between,
      woven]
    rfl

end Steps

/-- Weaving can be parted in two wherever the changes of both parts stand. -/
theorem weavesOn_of_within (transform : Text → Text) (isFirst : Change → Bool) {cursor : Nat}
    {changes : List Change} (finished : Text) (within : Within cursor content.length changes) :
    WeavesOn transform content cursor finished (changes.filter isFirst)
      (changes.filter fun c => !isFirst c) changes := by
  induction changes generalizing cursor finished with
  | nil =>
      exact weavesOn_nil transform content cursor finished
  | cons c rest hypothesis =>
      obtain ⟨⟨after, proper, inside⟩, others⟩ := within.of_cons
      have stop : (c.span.stop.toNat : Int) = c.span.stop := by omega
      have further (finished : Text) := hypothesis finished (by rwa [stop])
      cases part : isFirst c with
      | true =>
          rw [List.filter_cons_of_pos part, List.filter_cons_of_neg (by simp [part])]
          refine (further _).applied after proper inside fun b member => ?_
          exact (others.2 b (List.mem_of_mem_filter member)).1
      | false =>
          rw [List.filter_cons_of_neg (by simp [part]), List.filter_cons_of_pos (by simp [part])]
          refine (further _).kept after proper inside fun a member => ?_
          have bounds := others.2 a (List.mem_of_mem_filter member)
          exact ⟨bounds.1, bounds.2.1⟩

/-! ### Patching in two steps -/

theorem fits_and_free_of_apply {changes : List Change} {result : Text}
    (accepted : apply transform content changes = .ok result) :
    (∀ c ∈ changes, c.span.Fits content.length) ∧ ∀ a b, ¬ Collide changes a b := by
  have fits : ∀ c ∈ changes, c.span.Fits content.length := by
    cases checked : checkRanges content.length changes with
    | ok _ =>
        exact checkRanges_ok_iff.mp checked
    | error fault =>
        unfold apply at accepted
        rw [checked] at accepted
        cases accepted
  refine ⟨fits, fun a b collide => ?_⟩
  obtain ⟨first, second, -, refused⟩ : ∃ first second, Collide changes first second ∧
      apply transform content changes = .error (.overlapping first.span second.span) :=
    apply_of_collide fits collide
  rw [refused] at accepted
  cases accepted

/-- The changes that a text accepts have an order in which they follow one another. -/
theorem exists_within_of_apply {changes : List Change} {result : Text}
    (accepted : apply transform content changes = .ok result) :
    ∃ ordered : List Change, ordered.Perm changes ∧ Within 0 content.length ordered ∧
      weave transform content 0 ordered = result := by
  obtain ⟨fits, free⟩ := fits_and_free_of_apply accepted
  obtain ⟨inOrder, woven⟩ := apply_of_free transform fits free
  have same : (descending changes).reverse.Perm changes :=
    (List.reverse_perm _).trans (descending_perm changes)
  rw [accepted, Except.ok.injEq] at woven
  refine ⟨_, same, ⟨inOrder, fun c member => ?_⟩, woven.symm⟩
  exact fits c (same.mem_iff.mp member)

theorem Within.apply {ordered changes : List Change} (within : Within 0 content.length ordered)
    (same : ordered.Perm changes) :
    apply transform content changes = .ok (weave transform content 0 ordered) :=
  apply_of_inOrder same (fun c member => within.2 c (same.mem_iff.mpr member)) within.1

theorem Within.nodup {lower upper : Int} {changes : List Change}
    (within : Within lower upper changes) : changes.Nodup := by
  refine within.1.imp_of_mem ?_
  rintro a b inA - before rfl
  have proper := within.2 a inA
  omega

/-- The changes of two parts without a common change are told apart by whether they are in the
first one. -/
theorem filter_perm_of_append {α : Type} [DecidableEq α] {first left items : List α}
    (parts : (first ++ left).Perm items) (distinct : items.Nodup) :
    (items.filter (· ∈ first)).Perm first ∧
      (items.filter fun c => !decide (c ∈ first)).Perm left := by
  obtain ⟨-, -, apart⟩ := List.nodup_append.mp (parts.nodup_iff.mpr distinct)
  have notInFirst : ∀ c ∈ left, c ∉ first := fun c member other => apart c other c member rfl
  constructor
  · refine (parts.symm.filter _).trans (List.Perm.of_eq ?_)
    rw [List.filter_append, List.filter_eq_self.mpr (by simp),
      List.filter_eq_nil_iff.mpr (by simpa using notInFirst), List.append_nil]
  · refine (parts.symm.filter _).trans (List.Perm.of_eq ?_)
    rw [List.filter_append, List.filter_eq_nil_iff.mpr (by simp),
      List.filter_eq_self.mpr (by simpa using notInFirst), List.nil_append]

/-- Changes that a text accepts may be parted in two in any way. The first part is accepted; the
second one, moved along by the first, is accepted by the text that the first part gives; and what
comes out is what both parts give at once. -/
theorem apply_of_parts {changes first left : List Change} {result : Text}
    (accepted : apply transform content changes = .ok result)
    (parts : (first ++ left).Perm changes) :
    apply transform content (first ++ left) = .ok result ∧
      ∃ middle, apply transform content first = .ok middle ∧
        apply transform middle (left.map (rebase transform first)) = .ok result := by
  obtain ⟨ordered, same, within, rfl⟩ := exists_within_of_apply accepted
  refine ⟨within.apply (same.trans parts.symm), ?_⟩
  obtain ⟨isFirst, isLeft⟩ := filter_perm_of_append (parts.trans same.symm) within.nodup
  have weaves :=
    weavesOn_of_within transform (fun c => decide (c ∈ first)) [] within
  unfold WeavesOn at weaves
  have atFront : (([] : Text).length : Int) - (0 : Nat) = 0 := rfl
  rw [atFront, moved_zero, List.nil_append] at weaves
  obtain ⟨laterWithin, woven⟩ := weaves
  refine ⟨_, (within.filter _).apply isFirst, ?_⟩
  rw [← woven]
  refine laterWithin.apply ((isLeft.map _).trans (List.Perm.of_eq ?_))
  exact List.map_congr_left fun c _ => by simp only [rebase, displacement_perm isFirst]

/-- The changes of the two parts take turns, and the list that is parted is in no order. The first
part has a change that grows and one that vanishes, so that of the two changes that are left one is
moved, and the other one stays. -/
theorem apply_of_parts_taking_turns :
    let content := Text.ofString "abcdefgh"
    let change (text : String) (start stop : Int) : Change :=
      ⟨.content, Text.ofString text, ⟨start, stop⟩, []⟩
    let first := [change "" 4 6, change "XYZ" 1 2]
    let left := [change "RS" 7 8, change "Q" 2 4]
    let changes := [change "RS" 7 8, change "" 4 6, change "Q" 2 4, change "XYZ" 1 2]
    apply id content changes = .ok (Text.ofString "aXYZQgRS") ∧ (first ++ left).Perm changes ∧
      left.map (rebase id first) = [change "RS" 7 8, change "Q" 4 6] ∧
      ∃ middle, apply id content first = .ok middle ∧
        apply id middle (left.map (rebase id first)) = .ok (Text.ofString "aXYZQgRS") := by
  intro content change first left changes
  let ordered := [change "XYZ" 1 2, change "Q" 2 4, change "" 4 6, change "RS" 7 8]
  have within : Within 0 content.length ordered := by
    unfold Within InOrder
    decide
  have accepted : apply id content changes = .ok (Text.ofString "aXYZQgRS") :=
    within.apply (by decide)
  have parts : (first ++ left).Perm changes := by decide
  exact ⟨accepted, parts, by decide, (apply_of_parts accepted parts).2⟩

end MdxLocalization.Patch
