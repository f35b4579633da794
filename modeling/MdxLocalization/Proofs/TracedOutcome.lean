import Mathlib.Data.List.Forall2
import MdxLocalization.Log.Traced

/-!
# How computations end

Ways to speak about a computation without looking at the events that it logs. `Settles` says what an
outcome is like, be it a result or an error, and `Ends` says the same of a computation that logs.
`Follows` compares such a computation with one that checks more than it does: either the two run
alike, or the check failed and what comes out instead is spoiled. `Relates` compares the results of
two computations, where both of them give one.
-/

namespace MdxLocalization

variable {ε α β : Type} {result : α → Prop} {other : β → Prop} {failure : ε → Prop}

/-! ### Outcomes -/

/-- What an outcome is like: its result has a property, or its error has one. -/
def Settles (result : α → Prop) (failure : ε → Prop) : Except ε α → Prop
  | .ok a => result a
  | .error e => failure e

theorem Settles.imp {weaker : α → Prop} {x : Except ε α} (settled : Settles result failure x)
    (implies : ∀ a, result a → weaker a) : Settles weaker failure x := by
  cases x with
  | ok a =>
      exact implies a settled
  | error e =>
      exact settled

theorem Settles.bind {x : Except ε α} {f : α → Except ε β} (first : Settles result failure x)
    (rest : ∀ a, result a → Settles other failure (f a)) : Settles other failure (x >>= f) := by
  cases x with
  | ok a =>
      exact rest a first
  | error e =>
      exact first

namespace Traced

theorem bind_apply (x : Traced ε α) (f : α → Traced ε β) (events : List LogEvent) :
    (x >>= f) events =
      match x events with
      | (.ok a, after) => f a after
      | (.error e, after) => (.error e, after) := by
  change ExceptT.bindCont f (x events).1 (x events).2 = _
  cases x events with
  | mk result after =>
      cases result <;> rfl

/-! ### Results and errors -/

/-- Whatever has been logged before, a computation ends with a result or an error as described. -/
def Ends (result : α → Prop) (failure : ε → Prop) (x : Traced ε α) : Prop :=
  ∀ events, Settles result failure (x events).1

theorem ends_pure {a : α} (holds : result a) : Ends result failure (pure a : Traced ε α) :=
  fun _ => holds

theorem ends_throw {e : ε} (allowed : failure e) : Ends result failure (throw e : Traced ε α) :=
  fun _ => allowed

theorem ends_log (e : LogEvent) : Ends (fun _ => True) failure (log e : Traced ε Unit) :=
  fun _ => trivial

theorem ends_ofExcept {x : Except ε α} (settled : Settles result failure x) :
    Ends result failure (ofExcept x) := by
  intro events
  cases x with
  | ok a =>
      exact settled
  | error e =>
      exact settled

theorem ends_any {x : Traced ε α} : Ends (fun _ => True) (fun _ => True) x := by
  intro events
  cases (x events).1 <;> trivial

theorem Ends.bind {x : Traced ε α} {f : α → Traced ε β} (first : Ends result failure x)
    (rest : ∀ a, result a → Ends other failure (f a)) : Ends other failure (x >>= f) := by
  intro events
  have settled := first events
  rw [bind_apply]
  cases outcome : x events with
  | mk ended after =>
      rw [outcome] at settled
      cases ended with
      | ok a =>
          exact rest a settled after
      | error e =>
          exact settled

theorem Ends.map {x : Traced ε α} {f : α → β} (first : Ends result failure x)
    (carried : ∀ a, result a → other (f a)) :
    Ends other failure (x >>= fun a => pure (f a)) :=
  first.bind fun a holds => ends_pure (carried a holds)

theorem Ends.imp {weaker : α → Prop} {x : Traced ε α} (ends : Ends result failure x)
    (implies : ∀ a, result a → weaker a) : Ends weaker failure x := by
  intro events
  exact (ends events).imp implies

/-- What comes of each input in a list is related to it. -/
theorem ends_mapM_forall₂ {γ : Type} {f : γ → Traced ε α} {relation : γ → α → Prop}
    {inputs : List γ} (each : ∀ input ∈ inputs, Ends (relation input) failure (f input)) :
    Ends (List.Forall₂ relation inputs) failure (inputs.mapM f) := by
  induction inputs with
  | nil =>
      rw [List.mapM_nil]
      exact ends_pure .nil
  | cons input rest hypothesis =>
      obtain ⟨first, later⟩ := List.forall_mem_cons.mp each
      rw [List.mapM_cons]
      apply first.bind
      intro a holds
      exact (hypothesis later).map fun results hold => .cons holds hold

theorem ends_mapM {γ : Type} {f : γ → Traced ε α} {inputs : List γ}
    (each : ∀ input ∈ inputs, Ends result failure (f input)) :
    Ends (fun results => ∀ a ∈ results, result a) failure (inputs.mapM f) :=
  (ends_mapM_forall₂ each).imp fun results hold a member => by
    obtain ⟨i, inside, rfl⟩ := List.getElem_of_mem member
    exact hold.get (hold.length_eq ▸ inside) inside

/-- What comes of a computation, if anything, has a property. -/
abbrev Leaves (result : α → Prop) (x : Traced ε α) : Prop := Ends result (fun _ => True) x

/-! ### Comparing with a computation that checks more -/

/-- `x` runs as `y` does, unless `y` ends with a given error; then what `x` gives, if anything, has
a property. -/
def Follows (refusal : ε) (spoiled : α → Prop) (x y : Traced ε α) : Prop :=
  ∀ events, x events = y events ∨
    (y events).1 = .error refusal ∧ Settles spoiled (fun _ => True) (x events).1

variable {refusal : ε} {spoiled : α → Prop} {ruined : β → Prop}

theorem Follows.refl (refusal : ε) (spoiled : α → Prop) (x : Traced ε α) :
    Follows refusal spoiled x x :=
  fun _ => Or.inl rfl

/-- One computation after another follows when both do, provided that the second one cannot repair
what the first one spoiled. -/
theorem Follows.bind {x y : Traced ε α} {f g : α → Traced ε β}
    (first : Follows refusal spoiled x y) (rest : ∀ a, Follows refusal ruined (f a) (g a))
    (lasting : ∀ a, spoiled a → Ends ruined (fun _ => True) (f a)) :
    Follows refusal ruined (x >>= f) (y >>= g) := by
  intro events
  rw [bind_apply, bind_apply]
  rcases first events with same | ⟨refused, ended⟩
  · rw [same]
    cases outcome : y events with
    | mk ended after =>
        cases ended with
        | ok a =>
            exact rest a after
        | error e =>
            exact Or.inl rfl
  · refine Or.inr ⟨?_, ?_⟩
    · cases outcome : y events with
      | mk result after =>
          rw [outcome] at refused
          subst refused
          rfl
    · cases outcome : x events with
      | mk result after =>
          rw [outcome] at ended
          cases result with
          | ok a =>
              exact lasting a ended after
          | error e =>
              trivial

theorem Follows.map {x y : Traced ε α} {f : α → β} (first : Follows refusal spoiled x y)
    (carried : ∀ a, spoiled a → ruined (f a)) :
    Follows refusal ruined (x >>= fun a => pure (f a)) (y >>= fun a => pure (f a)) :=
  first.bind (fun a => .refl refusal ruined (pure (f a))) fun a holds => ends_pure (carried a holds)

/-! ### Comparing the results of two computations -/

/-- Where two computations both give a result, the results are related. -/
def Relates (related : α → β → Prop) (x : Traced ε α) (y : Traced ε β) : Prop :=
  ∀ events events' a b, (x events).1 = .ok a → (y events').1 = .ok b → related a b

section Relates

variable {γ δ : Type} {related : α → β → Prop} {other' : γ → δ → Prop} {x : Traced ε α}
  {y : Traced ε β}

theorem relates_pure {a : α} {b : β} (holds : related a b) :
    Relates related (pure a : Traced ε α) (pure b) := by
  intro events events' a b left right
  cases left
  cases right
  exact holds

theorem relates_throw (e : ε) (y : Traced ε β) : Relates related (throw e) y := by
  intro events events' a b left
  cases left

theorem relates_any (x : Traced ε α) (y : Traced ε β) : Relates (fun _ _ => True) x y :=
  fun _ _ _ _ _ _ => trivial

theorem relates_ofExcept {x : Except ε α} {y : Except ε β}
    (results : ∀ a b, x = .ok a → y = .ok b → related a b) :
    Relates related (ofExcept x) (ofExcept y) := by
  intro events events' a b left right
  cases x with
  | error e =>
      cases left
  | ok a =>
      cases y with
      | error e =>
          cases right
      | ok b =>
          cases left
          cases right
          exact results a b rfl rfl

/-- A sequence gives a result only where its first part does. -/
theorem exists_of_bind_ok {f : α → Traced ε γ} {events : List LogEvent} {c : γ}
    (ended : ((x >>= f) events).1 = .ok c) :
    ∃ a, (x events).1 = .ok a ∧ (f a (x events).2).1 = .ok c := by
  rw [bind_apply] at ended
  cases outcome : x events with
  | mk result after =>
      rw [outcome] at ended
      cases result with
      | ok a =>
          exact ⟨a, rfl, ended⟩
      | error e =>
          cases ended

theorem Relates.bind {f : α → Traced ε γ} {g : β → Traced ε δ} (first : Relates related x y)
    (rest : ∀ a b, related a b → Relates other' (f a) (g b)) :
    Relates other' (x >>= f) (y >>= g) := by
  intro events events' c d left right
  obtain ⟨a, isFirst, left⟩ := exists_of_bind_ok left
  obtain ⟨b, isFirst', right⟩ := exists_of_bind_ok right
  exact rest a b (first _ _ a b isFirst isFirst') _ _ c d left right

theorem Relates.map {f : α → γ} {g : β → δ} (first : Relates related x y)
    (carried : ∀ a b, related a b → other' (f a) (g b)) :
    Relates other' (x >>= fun a => pure (f a)) (y >>= fun b => pure (g b)) :=
  first.bind fun a b holds => relates_pure (carried a b holds)

/-- What is known of the results of the first computation alone comes with the relation. -/
theorem Relates.and_leaves (relates : Relates related x y) (leaves : Leaves result x) :
    Relates (fun a b => related a b ∧ result a) x y := by
  intro events events' a b left right
  refine ⟨relates events events' a b left right, ?_⟩
  have settled := leaves events
  rw [left] at settled
  exact settled

theorem relates_mapM {ι : Type} {f : ι → Traced ε α} {g : ι → Traced ε β} {inputs : List ι}
    (each : ∀ input ∈ inputs, Relates related (f input) (g input)) :
    Relates (List.Forall₂ related) (inputs.mapM f) (inputs.mapM g) := by
  induction inputs with
  | nil =>
      rw [List.mapM_nil, List.mapM_nil]
      exact relates_pure .nil
  | cons input rest hypothesis =>
      obtain ⟨first, later⟩ := List.forall_mem_cons.mp each
      rw [List.mapM_cons, List.mapM_cons]
      refine first.bind fun a b holds => ?_
      exact (hypothesis later).map fun as bs hold => .cons holds hold

end Relates

end Traced

end MdxLocalization
