import MdxLocalization.Proofs.RunEffects
import MdxLocalization.Workflow.Update

/-!
# An update is all or nothing

Everything that can go wrong in an update goes wrong before its last step, which writes the result.
Directories may have been made by then, but no file. So a failed update leaves every file as it was,
and one that succeeds has written the target and no other file.
-/

namespace MdxLocalization

namespace FileStore

/-! ### Making directories writes no file -/

variable {s : FileStore} {p : Path}

/-- The files at all places are a matter of the files only. -/
theorem fileAt?_of_files {other : FileStore} (same : other.files = s.files) (place : Place) :
    other.fileAt? place = s.fileAt? place := by
  unfold fileAt?
  rw [same]

theorem files_makeDirectory {made : FileStore} (success : s.makeDirectory p = .ok made) :
    made.files = s.files := by
  unfold makeDirectory at success
  cases led : s.locate p with
  | error fault =>
      rw [led] at success
      cases success
  | ok place =>
      rw [led] at success
      simp only [bind, Except.bind] at success
      split at success
      · cases success
        rfl
      · split at success <;> cases success
        rfl

theorem files_makeDirectoriesWithin (budget : Nat) (s : FileStore) (p : Path) :
    (makeDirectoriesWithin budget s p).1.files = s.files := by
  induction budget generalizing s p with
  | zero =>
      unfold makeDirectoriesWithin
      split
      · rename_i made success
        exact files_makeDirectory success
      · rfl
  | succ budget hypothesis =>
      unfold makeDirectoriesWithin
      split
      · rename_i made success
        exact files_makeDirectory success
      · split
        · have above := hypothesis s p.parent
          split
          · rename_i between e outcome
            rw [outcome] at above
            exact above
          · rename_i between outcome
            rw [outcome] at above
            split
            · rename_i made success
              exact (files_makeDirectory success).trans above
            · exact above
        · rfl

end FileStore

namespace Run

variable {w w' : Workspace} {p : Path} {t : Text}

theorem keeps_makeDirectories (p : Path) : Keeps (·.files.files) (makeDirectories p) :=
  fun w => FileStore.files_makeDirectoriesWithin p.names.length w.files p

theorem writeFile_apply (p : Path) (t : Text) :
    writeFile p t w =
      match w.files.write p (Utf8.encode t) with
      | .ok files => (.ok (), { w with files := files })
      | .error e => (.error e, w) := by
  have step : (get : Run FileError Workspace) w = (.ok w, w) := rfl
  unfold writeFile
  rw [bind_of_ok step]
  cases w.files.write p (Utf8.encode t) <;> rfl

theorem keepsOnFailure_writeFile (p : Path) (t : Text) :
    KeepsOnFailure (·.files.files) (writeFile p t) := by
  intro w e failed
  rw [writeFile_apply] at failed ⊢
  split at failed
  · cases failed
  · rfl

/-- A text that was written is the contents of the file at a place, and the files at all other
places are as they were. -/
theorem of_writeFile_ok (done : writeFile p t w = (.ok (), w')) :
    ∃ place, w'.files.locate p = .ok place ∧
      w'.files.fileAt? place = some (Utf8.encode t) ∧
      ∀ other, other ≠ place → w'.files.fileAt? other = w.files.fileAt? other := by
  rw [writeFile_apply] at done
  split at done
  · rename_i written success
    cases done
    cases led : w.files.locate p with
    | error fault =>
        rw [FileStore.write, led] at success
        cases success
    | ok place =>
        cases directory : w.files.isDirectory place with
        | true =>
            rw [FileStore.write, led] at success
            simp [bind, Except.bind, directory] at success
        | false =>
            rw [FileStore.write_of_locate led directory] at success
            cases success
            refine ⟨place, ?_, FileStore.fileAt?_put_self directory,
              fun other apart => FileStore.fileAt?_put_of_ne apart⟩
            unfold FileStore.locate
            rw [FileStore.walk_put directory (FileStore.walk_of_locate led)]
            rfl
  · cases done

end Run

namespace Update

/-! ### Updates -/

theorem keepsOnFailure_run (config : Config) (r : Request) :
    Run.KeepsOnFailure (·.files.files) (run config r) := by
  unfold run
  refine (Run.keeps_readText _ _).bind_onFailure fun source => ?_
  refine (Run.keeps_readText _ _).bind_onFailure fun translated => ?_
  refine (Run.keeps_ofExcept _).bind_onFailure fun changes => ?_
  refine (Run.keeps_ofExcept _).bind_onFailure fun result => ?_
  refine (Run.keeps_makeDirectories _).mapError.bind_onFailure fun _ => ?_
  exact (Run.keepsOnFailure_writeFile _ _).mapError.bind_ok fun _ _ => ⟨_, rfl⟩

/-- A failed update leaves every file as it was and makes no new one. An update that succeeds has
written the target and no other file; what it has written is the document with the changes of the
translated file applied, both read before. -/
theorem run_allOrNothing (config : Config) (r : Request) (w : Workspace) :
    match run config r w with
    | (.error _, after) => ∀ place, after.files.fileAt? place = w.files.fileAt? place
    | (.ok path, after) =>
      path = r.output.getD r.source ∧
        ∃ original source carried translated changes result place,
          w.files.read r.source = .ok original ∧ Utf8.decode original = .ok source ∧
          w.files.read r.translated = .ok carried ∧ Utf8.decode carried = .ok translated ∧
          Payload.read (Text.normalizeBreaks translated) = .ok changes ∧
          Patch.apply (Patch.textTransform (r.emphasize.getD config.emphasize)) source changes =
            .ok result ∧
          after.files.locate path = .ok place ∧
          after.files.fileAt? place = some (Utf8.encode result) ∧
          ∀ other, other ≠ place → after.files.fileAt? other = w.files.fileAt? other := by
  have kept := keepsOnFailure_run config r w
  cases outcome : run config r w with
  | mk ended after =>
      rw [outcome] at kept
      cases ended with
      | error failure =>
          exact FileStore.fileAt?_of_files (kept failure rfl)
      | ok path =>
          unfold run at outcome
          obtain ⟨source, w₁, sourceRead, outcome⟩ := Run.of_bind_ok outcome
          obtain ⟨translated, w₂, translatedRead, outcome⟩ := Run.of_bind_ok outcome
          obtain ⟨changes, w₃, changesRead, outcome⟩ := Run.of_bind_ok outcome
          obtain ⟨result, w₄, applied, outcome⟩ := Run.of_bind_ok outcome
          obtain ⟨_, w₅, directories, outcome⟩ := Run.of_bind_ok outcome
          obtain ⟨_, w₆, written, outcome⟩ := Run.of_bind_ok outcome
          cases outcome
          obtain ⟨original, found, decoded⟩ := Run.of_readText_ok sourceRead
          obtain ⟨carried, brought, legible⟩ := Run.of_readText_ok translatedRead
          obtain ⟨given, same₃⟩ := Run.of_ofExcept_ok changesRead
          obtain ⟨patched, same₄⟩ := Run.of_ofExcept_ok applied
          have same₁ : w₁ = w :=
            Run.Keeps.of_eq (Run.keeps_readText _ _ : Run.Keeps id _) sourceRead
          have same₂ : w₂ = w₁ :=
            Run.Keeps.of_eq (Run.keeps_readText _ _ : Run.Keeps id _) translatedRead
          have made := (Run.keeps_makeDirectories _).mapError.of_eq directories
          obtain ⟨place, led, stored, others⟩ := Run.of_writeFile_ok (Run.of_mapError_ok written)
          rw [same₁] at brought
          rw [same₄, same₃, same₂, same₁] at made
          refine ⟨rfl, original, source, carried, translated, changes, result, place, found,
            decoded, brought, legible, Except.of_mapError_ok given, Except.of_mapError_ok patched,
            led, stored, fun other apart => ?_⟩
          exact (others other apart).trans (FileStore.fileAt?_of_files made other)

end Update

end MdxLocalization
