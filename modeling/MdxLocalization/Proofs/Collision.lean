import Mathlib.Data.List.Perm.Subperm
import MdxLocalization.Proofs.Weaving

/-!
# Colliding changes

Both checks of a list of changes sort it and then compare neighbours only. This module relates what
neighbours show to what matters: whether any two changes of the list, wherever they stand, claim the
same offset. Two changes count as two when they stand at different places of the list, so a change
that occurs twice collides with itself.
-/

namespace MdxLocalization.Patch

/-- Two spans have an offset in common. -/
def Meet (s t : Span) : Prop := ∃ k : Int, s.start ≤ k ∧ k < s.stop ∧ t.start ≤ k ∧ k < t.stop

/-- Two changes at different places of a list have an offset in common. -/
def Collide (changes : List Change) (a b : Change) : Prop :=
  (∃ i j : Nat, i ≠ j ∧ changes[i]? = some a ∧ changes[j]? = some b) ∧ Meet a.span b.span

theorem Meet.symm {s t : Span} (meet : Meet s t) : Meet t s := by
  obtain ⟨k, inLeft, inLeft', inRight, inRight'⟩ := meet
  exact ⟨k, inRight, inRight', inLeft, inLeft'⟩

theorem meet_of_overlaps {s t : Span} (sProper : s.start < s.stop) (tProper : t.start < t.stop)
    (overlaps : s.Overlaps t) : Meet s t := by
  obtain ⟨left, right⟩ := overlaps
  refine ⟨max s.start t.start, ?_, ?_, ?_, ?_⟩ <;> omega

/-! ### Places in a list -/

theorem eq_of_perm_pair {α : Type} {a b : α} {items : List α} (same : items.Perm [a, b]) :
    items = [a, b] ∨ items = [b, a] := by
  obtain ⟨x, y, rfl⟩ := List.length_eq_two.mp same.length_eq
  have present : a ∈ [x, y] := same.mem_iff.mpr List.mem_cons_self
  rcases List.mem_pair.mp present with rfl | rfl
  · have rest : [y] = [b] := List.perm_singleton.mp ((List.perm_cons a).mp same)
    exact Or.inl (by rw [rest])
  · have swapped : [a, x].Perm [a, b] := (List.Perm.swap x a []).trans same
    have rest : [x] = [b] := List.perm_singleton.mp ((List.perm_cons a).mp swapped)
    exact Or.inr (by rw [List.singleton_inj.mp rest])

/-- Two items stand at different places of a list exactly when the list holds both of them, counted
with multiplicity. -/
theorem pair_subperm_iff {α : Type} {a b : α} {items : List α} :
    [a, b].Subperm items ↔ ∃ i j : Nat, i ≠ j ∧ items[i]? = some a ∧ items[j]? = some b := by
  have ordered {x y : α} (sub : [x, y].Sublist items) :
      ∃ i j : Nat, i ≠ j ∧ items[i]? = some x ∧ items[j]? = some y := by
    obtain ⟨front, back, rfl, inFront, tail⟩ := List.cons_sublist_iff.mp sub
    obtain ⟨i, atI⟩ := List.mem_iff_getElem?.mp inFront
    obtain ⟨j, atJ⟩ := List.mem_iff_getElem?.mp (List.singleton_sublist.mp tail)
    have bound : i < front.length := (List.getElem?_eq_some_iff.mp atI).1
    refine ⟨i, front.length + j, by omega, ?_, ?_⟩
    · rw [List.getElem?_append_left bound, atI]
    · rw [List.getElem?_append_right (by omega), Nat.add_sub_cancel_left, atJ]
  have placed {x y : α} {i j : Nat} (before : i < j) (atI : items[i]? = some x)
      (atJ : items[j]? = some y) : [x, y].Sublist items := by
    rw [← List.take_append_drop j items]
    change ([x] ++ [y]).Sublist _
    apply List.Sublist.append
    · refine List.singleton_sublist.mpr (List.mem_iff_getElem?.mpr ⟨i, ?_⟩)
      rw [List.getElem?_take_of_lt before, atI]
    · refine List.singleton_sublist.mpr (List.mem_iff_getElem?.mpr ⟨0, ?_⟩)
      rw [List.getElem?_drop, Nat.add_zero, atJ]
  constructor
  · rintro ⟨pair, perm, sub⟩
    rcases eq_of_perm_pair perm with rfl | rfl
    · exact ordered sub
    · obtain ⟨j, i, different, atJ, atI⟩ := ordered sub
      exact ⟨i, j, different.symm, atI, atJ⟩
  · rintro ⟨i, j, different, atI, atJ⟩
    rcases Nat.lt_or_gt_of_ne different with before | after
    · exact (placed before atI atJ).subperm
    · exact (List.Perm.swap b a []).subperm.trans (placed after atJ atI).subperm

theorem Collide.perm {changes other : List Change} {a b : Change} (same : changes.Perm other)
    (collide : Collide changes a b) : Collide other a b := by
  obtain ⟨places, meet⟩ := collide
  refine ⟨pair_subperm_iff.mp ?_, meet⟩
  exact (pair_subperm_iff.mpr places).trans same.subperm

theorem Collide.symm {changes : List Change} {a b : Change} (collide : Collide changes a b) :
    Collide changes b a := by
  obtain ⟨⟨i, j, different, atI, atJ⟩, meet⟩ := collide
  exact ⟨⟨j, i, different.symm, atJ, atI⟩, meet.symm⟩

theorem InOrder.not_collide {changes : List Change} (inOrder : InOrder changes) (a b : Change) :
    ¬ Collide changes a b := by
  rintro ⟨⟨i, j, different, atI, atJ⟩, k, aFrom, aTo, bFrom, bTo⟩
  obtain ⟨iBound, rfl⟩ := List.getElem?_eq_some_iff.mp atI
  obtain ⟨jBound, rfl⟩ := List.getElem?_eq_some_iff.mp atJ
  have apart := List.pairwise_iff_getElem.mp inOrder
  rcases Nat.lt_or_gt_of_ne different with before | after
  · have := apart i j iBound jBound before
    omega
  · have := apart j i jBound iBound after
    omega

end MdxLocalization.Patch
