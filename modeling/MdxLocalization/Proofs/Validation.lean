import MdxLocalization.Proofs.Patching

/-!
# What validation accepts

Validation compares neighbours in ascending order. As with patching, neighbours that are apart are
enough, since all spans are non-empty.
-/

namespace MdxLocalization.Patch

variable {changes : List Change}

theorem ascending_perm (changes : List Change) : (ascending changes).Perm changes :=
  List.mergeSort_perm changes _

theorem ascending_sorted (changes : List Change) :
    (ascending changes).Pairwise fun a b => a.span.start ≤ b.span.start := by
  let before (a b : Change) : Bool :=
    decide (a.span.start < b.span.start ∨
      a.span.start = b.span.start ∧ a.span.stop ≤ b.span.stop)
  have transitive (a b c : Change) : before a b → before b c → before a c := by
    simp only [before, decide_eq_true_eq]
    omega
  have total (a b : Change) : before a b || before b a := by
    simp only [before, Bool.or_eq_true, decide_eq_true_eq]
    omega
  apply (List.pairwise_mergeSort transitive total changes).imp
  intro a b ordered
  simp only [before, decide_eq_true_eq] at ordered
  omega

theorem InOrder.ascending_eq (inOrder : InOrder changes)
    (proper : ∀ c ∈ changes, c.span.start < c.span.stop) : ascending changes = changes := by
  apply List.mergeSort_of_pairwise
  refine List.Pairwise.imp_of_mem ?_ inOrder
  intro a b inA inB apart
  have aProper := proper a inA
  simp only [decide_eq_true_eq]
  omega

theorem checkAscending_cons_cons (first second : Change) (rest : List Change) :
    checkAscending (first :: second :: rest) =
      if first.span.Overlaps second.span then .error (.overlapping first.span second.span)
      else checkAscending (second :: rest) := rfl

/-- In ascending order the check of neighbours passes exactly when the changes follow one
another. -/
theorem checkAscending_ok_iff (sorted : changes.Pairwise fun a b => a.span.start ≤ b.span.start)
    (proper : ∀ c ∈ changes, c.span.start < c.span.stop) :
    checkAscending changes = .ok () ↔ InOrder changes := by
  induction changes with
  | nil =>
      exact iff_of_true rfl List.Pairwise.nil
  | cons first rest ih =>
      obtain ⟨headFirst, restSorted⟩ := List.pairwise_cons.mp sorted
      have restProper : ∀ c ∈ rest, c.span.start < c.span.stop :=
        fun c member => proper c (List.mem_cons_of_mem first member)
      cases rest with
      | nil =>
          exact iff_of_true rfl (List.pairwise_singleton _ first)
      | cons second rest =>
          have restPassed := ih restSorted restProper
          have firstProper := proper first List.mem_cons_self
          have secondProper := restProper second List.mem_cons_self
          have ordered := headFirst second List.mem_cons_self
          by_cases overlaps : first.span.Overlaps second.span
          · simp only [checkAscending_cons_cons, if_pos overlaps, reduceCtorEq, false_iff]
            intro inOrder
            have := (List.pairwise_cons.mp inOrder).1 second List.mem_cons_self
            have := overlaps.2
            omega
          · simp only [checkAscending_cons_cons, if_neg overlaps]
            rw [restPassed]
            have gap : first.span.stop ≤ second.span.start := by
              by_contra reaches
              exact overlaps ⟨by omega, by omega⟩
            constructor
            · intro restInOrder
              refine List.pairwise_cons.mpr ⟨?_, restInOrder⟩
              intro c member
              rcases List.mem_cons.mp member with rfl | deeper
              · exact gap
              · have := (List.pairwise_cons.mp restInOrder).1 c deeper
                omega
            · exact fun inOrder => (List.pairwise_cons.mp inOrder).2

/-- Validation passes exactly when all spans fit and, in ascending order, follow one another. -/
theorem validate_ok_iff {source : Text} :
    validate changes source = .ok () ↔
      (∀ c ∈ changes, c.span.Fits source.length) ∧ InOrder (ascending changes) := by
  have checked (fits : ∀ c ∈ changes, c.span.Fits source.length) :
      checkAscending (ascending changes) = .ok () ↔ InOrder (ascending changes) := by
    apply checkAscending_ok_iff (ascending_sorted changes)
    exact fun c member => (fits c ((ascending_perm changes).mem_iff.mp member)).2.1
  unfold validate
  cases ranges : checkRanges source.length changes with
  | error fault =>
      have unfit : ¬ ∀ c ∈ changes, c.span.Fits source.length := by
        rw [← checkRanges_ok_iff, ranges]
        simp
      simp [bind, Except.bind, unfit]
  | ok _ =>
      have fits : ∀ c ∈ changes, c.span.Fits source.length := checkRanges_ok_iff.mp ranges
      rw [← checked fits]
      exact ⟨fun passed => ⟨fits, passed⟩, fun passed => passed.2⟩

end MdxLocalization.Patch
