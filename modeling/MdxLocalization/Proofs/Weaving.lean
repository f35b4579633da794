import Mathlib.Data.List.Perm.Basic
import MdxLocalization.Patch
import MdxLocalization.Proofs.LinePositions

/-!
# Weaving new texts into a text

Replacing the spans of many changes at once has a plain meaning that does not depend on an order of
steps: the text is copied from left to right, and in the place of each span stands the new text of
its change. `weave` says this for changes that are given in the order of their spans. Patching goes
the other way, from the last change to the first, through texts of ever changing length; the main
result here is that it ends with the woven text.

What a patch accepts is not the matter of this module.
-/

namespace MdxLocalization

namespace Text

theorem slice_append_drop (t : Text) {first middle : Nat} (lower : first ≤ middle) :
    slice t first middle ++ t.drop middle = t.drop first := by
  have start : middle = first + (middle - first) := by omega
  unfold slice
  conv => lhs; rhs; rw [start, ← List.drop_drop]
  exact List.take_append_drop (middle - first) (t.drop first)

theorem slice_zero (t : Text) (last : Nat) : slice t 0 last = t.take last := by
  simp [slice]

end Text

namespace Patch

/-- Each change ends before every later one starts, or where it starts. -/
def InOrder (changes : List Change) : Prop :=
  changes.Pairwise fun a b => a.span.stop ≤ b.span.start

/-- The text from `cursor` on, in which the new text of each change stands in the place of its
span. The changes are given in order. -/
def weave (transform : Text → Text) (content : Text) (cursor : Nat) : List Change → Text
  | [] => content.drop cursor
  | c :: rest =>
    Text.slice content cursor c.span.start.toNat ++ transform c.text ++
      weave transform content c.span.stop.toNat rest

variable {transform : Text → Text} {content : Text}

theorem weave_cons (cursor : Nat) (c : Change) (rest : List Change) :
    weave transform content cursor (c :: rest) =
      Text.slice content cursor c.span.start.toNat ++ transform c.text ++
        weave transform content c.span.stop.toNat rest := rfl

/-- What stands before the first change is copied, so the weaving may start later. -/
theorem weave_eq_slice_append {cursor middle : Nat} (changes : List Change)
    (lower : cursor ≤ middle)
    (upper : ∀ c ∈ changes, middle ≤ c.span.start.toNat) :
    weave transform content cursor changes =
      Text.slice content cursor middle ++ weave transform content middle changes := by
  cases changes with
  | nil =>
      exact (Text.slice_append_drop content lower).symm
  | cons c rest =>
      have before : middle ≤ c.span.start.toNat := upper c List.mem_cons_self
      rw [weave_cons, weave_cons, ← Text.slice_append_slice content lower before]
      simp only [List.append_assoc]

/-- Replacing a span in a text that agrees with the content up to the end of the span. -/
theorem replace_take_append {c : Change} (fits : c.span.Fits content.length) (tail : Text) :
    replace transform (content.take c.span.stop.toNat ++ tail) c =
      .ok (content.take c.span.start.toNat ++ transform c.text ++ tail) := by
  obtain ⟨nonneg, nonempty, inside⟩ := fits
  have stopLe : c.span.stop.toNat ≤ content.length := by omega
  have startLe : c.span.start.toNat ≤ c.span.stop.toNat := by omega
  have takeLength : (content.take c.span.stop.toNat).length = c.span.stop.toNat := by
    rw [List.length_take]
    omega
  have stillFits : c.span.Fits (content.take c.span.stop.toNat ++ tail).length := by
    refine ⟨nonneg, nonempty, ?_⟩
    rw [List.length_append, takeLength]
    omega
  have front : (content.take c.span.stop.toNat ++ tail).take c.span.start.toNat =
      content.take c.span.start.toNat := by
    rw [List.take_append_of_le_length (by omega), List.take_take, Nat.min_eq_left startLe]
  have back : (content.take c.span.stop.toNat ++ tail).drop c.span.stop.toNat = tail := by
    rw [List.drop_append_of_le_length (by omega), List.drop_eq_nil_of_le (by omega)]
    rfl
  unfold replace
  rw [if_pos stillFits, front, back]

/-- Replacing the spans of ordered changes from the last one to the first one weaves their texts
in. The text after each step still begins with the content up to the next span to be replaced. -/
theorem foldrM_replace_eq_weave (transform : Text → Text) (changes : List Change)
    (fits : ∀ c ∈ changes, c.span.Fits content.length) (inOrder : InOrder changes) :
    changes.foldrM (fun c text => replace transform text c) content =
      .ok (weave transform content 0 changes) := by
  induction changes with
  | nil =>
      rfl
  | cons c rest ih =>
      have headFits : c.span.Fits content.length := fits c List.mem_cons_self
      obtain ⟨headFirst, restInOrder⟩ := List.pairwise_cons.mp inOrder
      have restWoven := ih (fun d member => fits d (List.mem_cons_of_mem c member)) restInOrder
      have later : ∀ d ∈ rest, c.span.stop.toNat ≤ d.span.start.toNat := by
        intro d member
        have := headFirst d member
        omega
      have split : weave transform content 0 rest =
          content.take c.span.stop.toNat ++ weave transform content c.span.stop.toNat rest := by
        rw [weave_eq_slice_append rest (Nat.zero_le _) later, Text.slice_zero]
      rw [List.foldrM_cons, restWoven]
      change replace transform (weave transform content 0 rest) c = _
      rw [split, replace_take_append headFits]
      rw [weave_cons, Text.slice_zero]

/-- There is only one order in which non-empty spans follow one another. -/
theorem InOrder.eq_of_perm {left right : List Change} (leftInOrder : InOrder left)
    (rightInOrder : InOrder right) (proper : ∀ c ∈ left, c.span.start < c.span.stop)
    (same : left.Perm right) : left = right := by
  refine List.Perm.eq_of_pairwise ?_ leftInOrder rightInOrder same
  intro a b inLeft inRight aBeforeB bBeforeA
  have aProper := proper a inLeft
  have bProper := proper b (same.mem_iff.mpr inRight)
  omega

end Patch

end MdxLocalization
