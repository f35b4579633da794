import MdxLocalization.Proofs.FileWriting
import MdxLocalization.Workflow.Failure

/-!
# Steps of a run

A run that gives a result went through all of its parts, each of which gave a result to the next.
The lemmas here take such a run apart and put one together; the larger statements about runs are
made of them and do not look into the state again.
-/

namespace MdxLocalization

theorem Except.of_mapError_ok {ε δ α : Type} {f : ε → δ} {x : Except ε α} {a : α}
    (done : x.mapError f = .ok a) : x = .ok a := by
  cases x <;> cases done
  rfl

namespace Run

variable {ε δ α β : Type} {w w' : Workspace}

/-! ### Putting runs together -/

theorem bind_of_ok {x : Run ε α} {f : α → Run ε β} {a : α} (done : x w = (.ok a, w')) :
    (x >>= f) w = f a w' := by
  change ExceptT.bindCont f (x w).1 (x w).2 = _
  rw [done]
  rfl

theorem of_bind_ok {x : Run ε α} {f : α → Run ε β} {b : β} (done : (x >>= f) w = (.ok b, w')) :
    ∃ a between, x w = (.ok a, between) ∧ f a between = (.ok b, w') := by
  cases outcome : x w with
  | mk result between =>
      cases result with
      | error e =>
          change ExceptT.bindCont f (x w).1 (x w).2 = _ at done
          rw [outcome] at done
          cases done
      | ok a =>
          rw [bind_of_ok outcome] at done
          exact ⟨a, between, rfl, done⟩

theorem mapError_ok {f : ε → δ} {x : Run ε α} {a : α} (done : x w = (.ok a, w')) :
    (x.mapError f) w = (.ok a, w') := by
  unfold mapError
  rw [done]

theorem of_mapError_ok {f : ε → δ} {x : Run ε α} {a : α}
    (done : (x.mapError f) w = (.ok a, w')) : x w = (.ok a, w') := by
  unfold mapError at done
  split at done
  · rename_i result between outcome
    cases done
    exact outcome
  · cases done

theorem ofExcept_apply (x : Except ε α) : ofExcept x w = (x, w) := by
  cases x <;> rfl

theorem of_ofExcept_ok {x : Except ε α} {a : α} (done : ofExcept x w = (.ok a, w')) :
    x = .ok a ∧ w' = w := by
  rw [ofExcept_apply] at done
  cases done
  exact ⟨rfl, rfl⟩

theorem of_ofExcept_mapError_ok {f : ε → δ} {x : Except ε α} {a : α}
    (done : ofExcept (x.mapError f) w = (.ok a, w')) : x = .ok a ∧ w' = w := by
  obtain ⟨given, same⟩ := of_ofExcept_ok done
  exact ⟨Except.of_mapError_ok given, same⟩

theorem ofExcept_mapError_ok {f : ε → δ} {x : Except ε α} {a : α} (done : x = .ok a) :
    ofExcept (x.mapError f) w = (.ok a, w) := by
  rw [done]
  rfl

/-! ### Files -/

theorem readFile_apply (p : Path) : readFile p w = (w.files.read p, w) := by
  have step : (get : Run FileError Workspace) w = (.ok w, w) := rfl
  unfold readFile
  rw [bind_of_ok step, ofExcept_apply]

theorem readText_ok {document file : Path} {bytes : Bytes} {t : Text}
    (found : w.files.read file = .ok bytes) (decoded : Utf8.decode bytes = .ok t) :
    readText document file w = (.ok t, w) := by
  have step : readFile file w = (.ok bytes, w) := by
    rw [readFile_apply, found]
  unfold readText
  rw [bind_of_ok (mapError_ok step), ofExcept_apply, decoded]
  rfl

theorem of_readText_ok {document file : Path} {t : Text}
    (done : readText document file w = (.ok t, w')) :
    ∃ bytes, w.files.read file = .ok bytes ∧ Utf8.decode bytes = .ok t := by
  obtain ⟨bytes, between, found, decoded⟩ := of_bind_ok done
  have step := of_mapError_ok found
  rw [readFile_apply] at step
  cases decoding : Utf8.decode bytes with
  | error e =>
      rw [decoding] at decoded
      cases decoded
  | ok text =>
      rw [decoding] at decoded
      cases decoded
      exact ⟨bytes, (Prod.mk.inj step).1, decoding⟩

/-- Writing a text to a path that can be written makes it the contents of the file there. -/
theorem makeDirectories_writeFile_ok {p : Path} (writable : w.files.Writable p) (t : Text) :
    ∃ made written, makeDirectories p.parent w = (.ok (), made) ∧
      writeFile p t made = (.ok (), written) ∧ written.files.read p = .ok (Utf8.encode t) := by
  obtain ⟨files, place, made, led, noDirectory⟩ := writable
  have success := FileStore.write_of_locate led noDirectory (Utf8.encode t)
  let written : FileStore := { files with files := FileStore.put place (Utf8.encode t) files.files }
  refine ⟨{ w with files := files }, { w with files := written }, ?_, ?_,
    FileStore.read_of_write success⟩
  · unfold makeDirectories
    rw [made]
  · have step : (get : Run FileError Workspace) { w with files := files } =
        (.ok { w with files := files }, { w with files := files }) := rfl
    have store : ofExcept (files.write p (Utf8.encode t)) { w with files := files } =
        (.ok written, { w with files := files }) := by
      rw [ofExcept_apply, success]
    unfold writeFile
    rw [bind_of_ok step, bind_of_ok store]
    rfl

end Run

end MdxLocalization
