import MdxLocalization.Proofs.Collision

/-!
# What patching accepts and what it gives

`Patch.apply` has three outcomes, and which one it is depends on the changes alone: the first span
that does not fit the content is refused; then colliding changes are refused; all other lists are
woven into the content. The order of the list matters for none of this but for which fault is named.

Sorting puts colliding changes next to each other as soon as all spans are non-empty. This is why
comparing neighbours is enough, and it is the one fact that both checks rest on.
-/

namespace MdxLocalization.Patch

/-! ### Checking the ranges -/

theorem checkRanges_ok_iff {n : Nat} {changes : List Change} :
    checkRanges n changes = .ok () ↔ ∀ c ∈ changes, c.span.Fits n := by
  unfold checkRanges
  cases found : changes.find? fun c => !decide (c.span.Fits n) with
  | none =>
      have fits := List.find?_eq_none.mp found
      simpa using fits
  | some c =>
      have member := List.mem_of_find?_eq_some found
      have unfit := List.find?_some found
      simp only [reduceCtorEq, false_iff]
      intro fits
      simp [fits c member] at unfit

theorem checkRanges_append_cons {n : Nat} {before after : List Change} {c : Change}
    (fits : ∀ b ∈ before, b.span.Fits n) (unfit : ¬ c.span.Fits n) :
    checkRanges n (before ++ c :: after) = .error (.invalidRange c.span) := by
  have found : (before ++ c :: after).find? (fun c => !decide (c.span.Fits n)) = some c := by
    refine List.find?_eq_some_iff_append.mpr ⟨by simpa using unfit, before, after, rfl, ?_⟩
    intro b member
    simpa using fits b member
  unfold checkRanges
  rw [found]

/-! ### Checking neighbours -/

theorem checkDescending_cons_cons (later earlier : Change) (rest : List Change) :
    checkDescending (later :: earlier :: rest) =
      if earlier.span.Overlaps later.span then .error (.overlapping earlier.span later.span)
      else checkDescending (earlier :: rest) := rfl

/-- A fault in descending order is a pair of neighbours that overlap. -/
theorem neighbours_of_checkDescending_error {changes : List Change} {fault : PatchError}
    (failed : checkDescending changes = .error fault) :
    ∃ later earlier, [later, earlier].Sublist changes ∧ earlier.span.Overlaps later.span ∧
      fault = .overlapping earlier.span later.span := by
  induction changes with
  | nil =>
      cases failed
  | cons later rest ih =>
      cases rest with
      | nil =>
          cases failed
      | cons earlier rest =>
          by_cases overlaps : earlier.span.Overlaps later.span
          · simp only [checkDescending_cons_cons, if_pos overlaps, Except.error.injEq] at failed
            refine ⟨later, earlier, ?_, overlaps, failed.symm⟩
            exact ((List.nil_sublist rest).cons_cons earlier).cons_cons later
          · simp only [checkDescending_cons_cons, if_neg overlaps] at failed
            obtain ⟨a, b, sub, found, named⟩ := ih failed
            exact ⟨a, b, sub.cons later, found, named⟩

/-- Descending changes with non-empty spans of which no neighbours overlap are apart, all of them:
a change that does not reach its neighbour cannot reach what starts even later. -/
theorem apart_of_checkDescending_ok {changes : List Change}
    (sorted : changes.Pairwise fun later earlier => earlier.span.start ≤ later.span.start)
    (proper : ∀ c ∈ changes, c.span.start < c.span.stop)
    (passed : checkDescending changes = .ok ()) :
    changes.Pairwise fun later earlier => earlier.span.stop ≤ later.span.start := by
  induction changes with
  | nil =>
      exact List.Pairwise.nil
  | cons later rest ih =>
      obtain ⟨first, others⟩ := List.pairwise_cons.mp sorted
      have restProper : ∀ c ∈ rest, c.span.start < c.span.stop :=
        fun c member => proper c (List.mem_cons_of_mem later member)
      cases rest with
      | nil =>
          exact List.pairwise_singleton _ later
      | cons earlier rest =>
          by_cases overlaps : earlier.span.Overlaps later.span
          · simp only [checkDescending_cons_cons, if_pos overlaps, reduceCtorEq] at passed
          · simp only [checkDescending_cons_cons, if_neg overlaps] at passed
            have restApart := ih others restProper passed
            have laterProper := proper later List.mem_cons_self
            have earlierProper := restProper earlier List.mem_cons_self
            have ordered := first earlier List.mem_cons_self
            have gap : earlier.span.stop ≤ later.span.start := by
              by_contra reaches
              exact overlaps ⟨by omega, by omega⟩
            refine List.pairwise_cons.mpr ⟨?_, restApart⟩
            intro c member
            rcases List.mem_cons.mp member with rfl | deeper
            · exact gap
            · have := (List.pairwise_cons.mp restApart).1 c deeper
              omega

/-! ### The descending order -/

theorem descending_perm (changes : List Change) : (descending changes).Perm changes :=
  List.mergeSort_perm changes _

theorem descending_sorted (changes : List Change) :
    (descending changes).Pairwise fun later earlier =>
      earlier.span.start ≤ later.span.start := by
  let before (a b : Change) : Bool := decide (b.span.start ≤ a.span.start)
  have transitive (a b c : Change) : before a b → before b c → before a c := by
    simp only [before, decide_eq_true_eq]
    omega
  have total (a b : Change) : before a b || before b a := by
    simp only [before, Bool.or_eq_true, decide_eq_true_eq]
    omega
  have sorted := List.pairwise_mergeSort transitive total changes
  simp only [before, decide_eq_true_eq] at sorted
  exact sorted

variable {transform : Text → Text} {content : Text} {changes : List Change}

theorem collide_of_checkDescending_error (proper : ∀ c ∈ changes, c.span.start < c.span.stop)
    {fault : PatchError} (failed : checkDescending (descending changes) = .error fault) :
    ∃ a b, Collide changes a b ∧ fault = .overlapping a.span b.span := by
  have same := descending_perm changes
  obtain ⟨later, earlier, sub, overlaps, named⟩ := neighbours_of_checkDescending_error failed
  have laterProper := proper later (same.mem_iff.mp (sub.subset (by simp)))
  have earlierProper := proper earlier (same.mem_iff.mp (sub.subset (by simp)))
  have meet := meet_of_overlaps earlierProper laterProper overlaps
  have places := pair_subperm_iff.mp (sub.subperm.trans same.subperm)
  exact ⟨earlier, later, (Collide.symm ⟨places, meet.symm⟩), named⟩

/-- Where nothing collides, the check of neighbours passes, and the descending order read from
behind is an order of the changes. -/
theorem checkDescending_ok_of_free (proper : ∀ c ∈ changes, c.span.start < c.span.stop)
    (free : ∀ a b, ¬ Collide changes a b) :
    checkDescending (descending changes) = .ok () ∧ InOrder (descending changes).reverse := by
  have passed : checkDescending (descending changes) = .ok () := by
    cases outcome : checkDescending (descending changes) with
    | ok _ =>
        rfl
    | error fault =>
        obtain ⟨a, b, collide, -⟩ := collide_of_checkDescending_error proper outcome
        exact absurd collide (free a b)
  refine ⟨passed, List.pairwise_reverse.mpr ?_⟩
  exact apart_of_checkDescending_ok (descending_sorted changes)
    (fun c member => proper c ((descending_perm changes).mem_iff.mp member)) passed

/-- The check of neighbours fails as soon as two changes collide anywhere. -/
theorem checkDescending_error_of_collide (proper : ∀ c ∈ changes, c.span.start < c.span.stop)
    {a b : Change} (collide : Collide changes a b) :
    ∃ fault, checkDescending (descending changes) = .error fault := by
  cases outcome : checkDescending (descending changes) with
  | error fault =>
      exact ⟨fault, rfl⟩
  | ok _ =>
      have same := descending_perm changes
      have apart := apart_of_checkDescending_ok (descending_sorted changes)
        (fun c member => proper c (same.mem_iff.mp member)) outcome
      have inOrder : InOrder (descending changes).reverse := List.pairwise_reverse.mpr apart
      have moved := collide.perm (same.symm.trans (List.reverse_perm _).symm)
      exact absurd moved (inOrder.not_collide a b)

/-! ### The three outcomes -/

/-- The first span that does not fit is named, and nothing else is looked at. -/
theorem apply_of_unfit {before after : List Change} {c : Change}
    (fits : ∀ b ∈ before, b.span.Fits content.length) (unfit : ¬ c.span.Fits content.length) :
    apply transform content (before ++ c :: after) = .error (.invalidRange c.span) := by
  unfold apply
  rw [checkRanges_append_cons fits unfit]
  rfl

theorem apply_of_fits (fits : ∀ c ∈ changes, c.span.Fits content.length) :
    apply transform content changes =
      (checkDescending (descending changes) >>= fun _ =>
        (descending changes).foldlM (replace transform) content) := by
  unfold apply
  rw [checkRanges_ok_iff.mpr fits]
  rfl

theorem apply_of_collide (fits : ∀ c ∈ changes, c.span.Fits content.length) {a b : Change}
    (collide : Collide changes a b) :
    ∃ a b, Collide changes a b ∧
      apply transform content changes = .error (.overlapping a.span b.span) := by
  have proper : ∀ c ∈ changes, c.span.start < c.span.stop := fun c member => (fits c member).2.1
  obtain ⟨fault, failed⟩ := checkDescending_error_of_collide proper collide
  obtain ⟨first, second, found, named⟩ := collide_of_checkDescending_error proper failed
  refine ⟨first, second, found, ?_⟩
  rw [apply_of_fits fits, failed, named]
  rfl

theorem apply_of_free (transform : Text → Text)
    (fits : ∀ c ∈ changes, c.span.Fits content.length)
    (free : ∀ a b, ¬ Collide changes a b) :
    InOrder (descending changes).reverse ∧
      apply transform content changes =
        .ok (weave transform content 0 (descending changes).reverse) := by
  have proper : ∀ c ∈ changes, c.span.start < c.span.stop := fun c member => (fits c member).2.1
  obtain ⟨passed, inOrder⟩ := checkDescending_ok_of_free proper free
  have reversedFits : ∀ c ∈ (descending changes).reverse, c.span.Fits content.length :=
    fun c member => fits c ((descending_perm changes).mem_iff.mp (List.mem_reverse.mp member))
  have woven := foldrM_replace_eq_weave transform _ reversedFits inOrder
  refine ⟨inOrder, ?_⟩
  rw [apply_of_fits fits, passed, ← woven]
  change (descending changes).foldlM (replace transform) content = _
  rw [List.foldrM_reverse]

/-- Ordered changes that fit are woven in, whatever the order of the list that holds them. -/
theorem apply_of_inOrder {ordered : List Change} (same : ordered.Perm changes)
    (fits : ∀ c ∈ changes, c.span.Fits content.length) (inOrder : InOrder ordered) :
    apply transform content changes = .ok (weave transform content 0 ordered) := by
  have free (a b : Change) : ¬ Collide changes a b :=
    fun collide => inOrder.not_collide a b (collide.perm same.symm)
  obtain ⟨reversedInOrder, applied⟩ := apply_of_free transform fits free
  have reversedSame : ordered.Perm (descending changes).reverse :=
    same.trans ((descending_perm changes).symm.trans (List.reverse_perm _).symm)
  have equal := inOrder.eq_of_perm reversedInOrder
    (fun c member => (fits c (same.mem_iff.mp member)).2.1) reversedSame
  rw [applied, equal]

/-- Patching is simultaneous replacement. A list with a span that does not fit is refused with the
first such span; a list in which changes collide is refused with a pair that does; every other list
has an order, which is woven in, so that its own order does not show. -/
theorem apply_outcome (transform : Text → Text) (content : Text) (changes : List Change) :
    (∀ before c after, changes = before ++ c :: after →
      (∀ b ∈ before, b.span.Fits content.length) → ¬ c.span.Fits content.length →
        apply transform content changes = .error (.invalidRange c.span)) ∧
    ((∀ c ∈ changes, c.span.Fits content.length) → (∃ a b, Collide changes a b) →
      ∃ a b, Collide changes a b ∧
        apply transform content changes = .error (.overlapping a.span b.span)) ∧
    ((∀ c ∈ changes, c.span.Fits content.length) → (∀ a b, ¬ Collide changes a b) →
      (∃ ordered : List Change, ordered.Perm changes ∧ InOrder ordered) ∧
      (∀ ordered : List Change, ordered.Perm changes → InOrder ordered →
        apply transform content changes = .ok (weave transform content 0 ordered)) ∧
      (∀ other : List Change, other.Perm changes →
        apply transform content other = apply transform content changes)) := by
  refine ⟨?_, ?_, ?_⟩
  · rintro before c after rfl fits unfit
    exact apply_of_unfit fits unfit
  · rintro fits ⟨a, b, collide⟩
    exact apply_of_collide fits collide
  · intro fits free
    obtain ⟨inOrder, applied⟩ := apply_of_free transform fits free
    have same : (descending changes).reverse.Perm changes :=
      (List.reverse_perm _).trans (descending_perm changes)
    refine ⟨⟨_, same, inOrder⟩, fun ordered => ?_, fun other otherSame => ?_⟩
    · exact fun orderedSame => apply_of_inOrder orderedSame fits
    · have otherFits : ∀ c ∈ other, c.span.Fits content.length :=
        fun c member => fits c (otherSame.mem_iff.mp member)
      rw [applied, apply_of_inOrder (same.trans otherSame.symm) otherFits inOrder]

/-- Three spans of a text of six characters, given out of order: the last one grows, the first one
vanishes, and the middle one shrinks. -/
theorem apply_outcome_three_spans :
    let content := ['a', 'b', 'c', 'd', 'e', 'f']
    let changes : List Change :=
      [⟨.content, ['X', 'Y', 'Z'], ⟨4, 6⟩, []⟩, ⟨.content, [], ⟨1, 2⟩, []⟩,
        ⟨.title, ['Q'], ⟨2, 4⟩, []⟩]
    (∀ c ∈ changes, c.span.Fits content.length) ∧ (∀ a b, ¬ Collide changes a b) ∧
      apply id content changes = .ok ['a', 'Q', 'X', 'Y', 'Z'] := by
  intro content changes
  let ordered : List Change :=
    [⟨.content, [], ⟨1, 2⟩, []⟩, ⟨.title, ['Q'], ⟨2, 4⟩, []⟩,
      ⟨.content, ['X', 'Y', 'Z'], ⟨4, 6⟩, []⟩]
  have same : ordered.Perm changes := by decide
  have inOrder : InOrder ordered := by unfold InOrder; decide
  have fits : ∀ c ∈ changes, c.span.Fits content.length := by decide
  have free (a b : Change) : ¬ Collide changes a b :=
    fun collide => inOrder.not_collide a b (collide.perm same.symm)
  exact ⟨fits, free, ((apply_outcome id content changes).2.2 fits free).2.1 ordered same inOrder⟩

end MdxLocalization.Patch
