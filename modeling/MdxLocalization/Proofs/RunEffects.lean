import MdxLocalization.Proofs.RunSteps

/-!
# What a run leaves alone

A part of the workspace is given by a view of it. `Keeps` says that a run leaves that part as it
was, whatever the run ends with, and `KeepsOnFailure` says it of the runs that fail. Both go through
the parts of a run one by one, so that a run that writes only at its end is seen to write nothing
when it fails.
-/

namespace MdxLocalization.Run

variable {ε δ α β σ : Type} {view : Workspace → σ}

/-- A run leaves a part of the workspace as it was. -/
def Keeps (view : Workspace → σ) (x : Run ε α) : Prop := ∀ w, view (x w).2 = view w

/-- A run that fails leaves a part of the workspace as it was. -/
def KeepsOnFailure (view : Workspace → σ) (x : Run ε α) : Prop :=
  ∀ w e, (x w).1 = .error e → view (x w).2 = view w

theorem Keeps.of_eq {x : Run ε α} (kept : Keeps view x) {w w' : Workspace} {result : Except ε α}
    (ended : x w = (result, w')) : view w' = view w := by
  have same := kept w
  rw [ended] at same
  exact same

theorem bind_of_error {x : Run ε α} {f : α → Run ε β} {w w' : Workspace} {e : ε}
    (failed : x w = (.error e, w')) : (x >>= f) w = (.error e, w') := by
  change ExceptT.bindCont f (x w).1 (x w).2 = _
  rw [failed]
  rfl

theorem mapError_error {f : ε → δ} {x : Run ε α} {w w' : Workspace} {e : ε}
    (failed : x w = (.error e, w')) : (x.mapError f) w = (.error (f e), w') := by
  unfold mapError
  rw [failed]

/-! ### One part after the other -/

theorem keeps_pure (a : α) : Keeps view (pure a : Run ε α) :=
  fun _ => rfl

theorem Keeps.bind {x : Run ε α} {f : α → Run ε β} (first : Keeps view x)
    (rest : ∀ a, Keeps view (f a)) : Keeps view (x >>= f) := by
  intro w
  have kept := first w
  cases outcome : x w with
  | mk result between =>
      rw [outcome] at kept
      cases result with
      | error e =>
          rw [bind_of_error outcome]
          exact kept
      | ok a =>
          rw [bind_of_ok outcome]
          exact (rest a between).trans kept

/-- What comes first changes nothing, and what follows nothing when it fails. -/
theorem Keeps.bind_onFailure {x : Run ε α} {f : α → Run ε β} (first : Keeps view x)
    (rest : ∀ a, KeepsOnFailure view (f a)) : KeepsOnFailure view (x >>= f) := by
  intro w e failed
  have kept := first w
  cases outcome : x w with
  | mk result between =>
      rw [outcome] at kept
      cases result with
      | error fault =>
          rw [bind_of_error outcome]
          exact kept
      | ok a =>
          rw [bind_of_ok outcome] at failed ⊢
          exact (rest a between e failed).trans kept

/-- What comes first changes nothing when it fails, and what follows does not fail. -/
theorem KeepsOnFailure.bind_ok {x : Run ε α} {f : α → Run ε β} (first : KeepsOnFailure view x)
    (rest : ∀ a w, ∃ b, (f a w).1 = .ok b) : KeepsOnFailure view (x >>= f) := by
  intro w e failed
  cases outcome : x w with
  | mk result between =>
      cases result with
      | error fault =>
          have kept := first w fault (by rw [outcome])
          rw [outcome] at kept
          rw [bind_of_error outcome]
          exact kept
      | ok a =>
          rw [bind_of_ok outcome] at failed
          obtain ⟨b, done⟩ := rest a between
          rw [done] at failed
          cases failed

theorem Keeps.mapError {f : ε → δ} {x : Run ε α} (kept : Keeps view x) :
    Keeps view (x.mapError f) := by
  intro w
  have same := kept w
  unfold Run.mapError
  split <;> simp_all

theorem KeepsOnFailure.mapError {f : ε → δ} {x : Run ε α} (kept : KeepsOnFailure view x) :
    KeepsOnFailure view (x.mapError f) := by
  intro w e failed
  have same := kept w
  unfold Run.mapError at failed ⊢
  split at failed <;> simp_all

theorem Keeps.mapM {f : β → Run ε α} {inputs : List β}
    (each : ∀ input ∈ inputs, Keeps view (f input)) : Keeps view (inputs.mapM f) := by
  induction inputs with
  | nil =>
      rw [List.mapM_nil]
      exact keeps_pure []
  | cons input rest hypothesis =>
      obtain ⟨first, later⟩ := List.forall_mem_cons.mp each
      rw [List.mapM_cons]
      exact first.bind fun _ => (hypothesis later).bind fun _ => keeps_pure _

/-! ### Steps -/

theorem keeps_ofExcept (x : Except ε α) : Keeps view (ofExcept x) := by
  intro w
  rw [ofExcept_apply]

/-- Logging is not seen by a view that does not look at the events. -/
theorem keeps_logAll (blind : ∀ w events, view { w with events } = view w) (es : List LogEvent) :
    Keeps view (logAll es : Run ε Unit) :=
  fun w => blind w _

theorem keeps_log (blind : ∀ w events, view { w with events } = view w) (e : LogEvent) :
    Keeps view (log e : Run ε Unit) :=
  fun w => blind w _

theorem keeps_ofTraced (blind : ∀ w events, view { w with events } = view w) (x : Traced ε α) :
    Keeps view (ofTraced x) :=
  fun w => blind w _

theorem keeps_readFile (p : Path) : Keeps view (readFile p) := by
  intro w
  rw [readFile_apply]

theorem keeps_readText (document file : Path) : Keeps view (readText document file) :=
  (keeps_readFile file).mapError.bind fun _ => keeps_ofExcept _

end MdxLocalization.Run
