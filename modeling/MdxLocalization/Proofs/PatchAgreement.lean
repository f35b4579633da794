import MdxLocalization.Proofs.Validation

/-!
# Validation and patching agree

Validation goes through the changes in ascending order and patching in descending order, and each
compares neighbours only. Both come down to the same two questions about the list itself, whether
all spans fit and whether any two changes collide. So the one accepts what the other does, and where
they refuse a list they do it for the same reason; only the colliding pair that is named may differ.
-/

namespace MdxLocalization.Patch

variable {changes : List Change} {source : Text}

theorem exists_of_checkRanges_error {n : Nat} {fault : PatchError}
    (failed : checkRanges n changes = .error fault) : ∃ span, fault = .invalidRange span := by
  unfold checkRanges at failed
  split at failed
  · cases failed
    exact ⟨_, rfl⟩
  · cases failed

theorem exists_of_checkAscending_error {fault : PatchError}
    (failed : checkAscending changes = .error fault) :
    ∃ first second, fault = .overlapping first second := by
  induction changes with
  | nil =>
      cases failed
  | cons first rest hypothesis =>
      cases rest with
      | nil =>
          cases failed
      | cons second rest =>
          rw [checkAscending_cons_cons] at failed
          split at failed
          · cases failed
            exact ⟨_, _, rfl⟩
          · exact hypothesis failed

/-- Changes by ascending start of which no two collide follow one another. -/
theorem inOrder_of_free (sorted : changes.Pairwise fun a b => a.span.start ≤ b.span.start)
    (proper : ∀ c ∈ changes, c.span.start < c.span.stop)
    (free : ∀ a b, ¬ Collide changes a b) : InOrder changes := by
  refine List.pairwise_iff_getElem.mpr fun i j iBound jBound before => ?_
  have ordered := List.pairwise_iff_getElem.mp sorted i j iBound jBound before
  have filled := proper changes[j] (List.getElem_mem jBound)
  by_contra reaches
  have places : ∃ i' j' : Nat, i' ≠ j' ∧ changes[i']? = some changes[i] ∧
      changes[j']? = some changes[j] :=
    ⟨i, j, Nat.ne_of_lt before, List.getElem?_eq_getElem iBound, List.getElem?_eq_getElem jBound⟩
  -- The later change starts in the earlier one.
  have meet : Meet changes[i].span changes[j].span :=
    ⟨changes[j].span.start, ordered, by omega, Int.le_refl _, filled⟩
  exact free _ _ ⟨places, meet⟩

theorem validate_of_free (fits : ∀ c ∈ changes, c.span.Fits source.length)
    (free : ∀ a b, ¬ Collide changes a b) : validate changes source = .ok () := by
  have same := ascending_perm changes
  have proper : ∀ c ∈ ascending changes, c.span.start < c.span.stop :=
    fun c member => (fits c (same.mem_iff.mp member)).2.1
  have inOrder : InOrder (ascending changes) :=
    inOrder_of_free (ascending_sorted changes) proper
      fun a b collide => free a b (collide.perm same)
  exact validate_ok_iff.mpr ⟨fits, inOrder⟩

theorem validate_of_collide (fits : ∀ c ∈ changes, c.span.Fits source.length) {a b : Change}
    (collide : Collide changes a b) :
    ∃ first second, validate changes source = .error (.overlapping first second) := by
  have checked : validate changes source = checkAscending (ascending changes) := by
    unfold validate
    rw [checkRanges_ok_iff.mpr fits]
    rfl
  cases outcome : checkAscending (ascending changes) with
  | ok _ =>
      have inOrder := (validate_ok_iff.mp (checked.trans outcome)).2
      exact absurd (collide.perm (ascending_perm changes).symm) (inOrder.not_collide a b)
  | error fault =>
      obtain ⟨first, second, rfl⟩ := exists_of_checkAscending_error outcome
      exact ⟨first, second, checked.trans outcome⟩

/-- Validation accepts a list of changes exactly when patching does, whatever is done to the texts.
Both name the same span when one does not fit, and both refuse the same lists for an overlap. -/
theorem validate_agrees_apply (transform : Text → Text) (changes : List Change) (source : Text) :
    (validate changes source = .ok () ↔ ∃ result, apply transform source changes = .ok result) ∧
    (∀ span, validate changes source = .error (.invalidRange span) ↔
      apply transform source changes = .error (.invalidRange span)) ∧
    ((∃ first second, validate changes source = .error (.overlapping first second)) ↔
      ∃ first second, apply transform source changes = .error (.overlapping first second)) := by
  cases ranges : checkRanges source.length changes with
  | error fault =>
      obtain ⟨span, rfl⟩ := exists_of_checkRanges_error ranges
      have validated : validate changes source = .error (.invalidRange span) := by
        unfold validate
        rw [ranges]
        rfl
      have applied : apply transform source changes = .error (.invalidRange span) := by
        unfold apply
        rw [ranges]
        rfl
      simp [validated, applied]
  | ok _ =>
      have fits : ∀ c ∈ changes, c.span.Fits source.length := checkRanges_ok_iff.mp ranges
      by_cases collides : ∃ a b, Collide changes a b
      · obtain ⟨a, b, collide⟩ := collides
        obtain ⟨first, second, validated⟩ := validate_of_collide fits collide
        obtain ⟨c, d, -, applied⟩ : ∃ c d, Collide changes c d ∧
            apply transform source changes = .error (.overlapping c.span d.span) :=
          apply_of_collide fits collide
        simp [validated, applied]
      · have free : ∀ a b, ¬ Collide changes a b := by
          simpa using collides
        have validated := validate_of_free fits free
        have applied := (apply_of_free transform fits free).2
        simp [validated, applied]

/-- Of two overlaps, validation names the first one and patching the last one. -/
example :
    let change (start stop : Int) : Change := ⟨.content, [], ⟨start, stop⟩, []⟩
    let changes := [change 1 3, change 0 2, change 2 4]
    validate changes ['a', 'b', 'c', 'd'] = .error (.overlapping ⟨0, 2⟩ ⟨1, 3⟩) ∧
      apply id ['a', 'b', 'c', 'd'] changes = .error (.overlapping ⟨1, 3⟩ ⟨2, 4⟩) := by
  cbv

end MdxLocalization.Patch
