import MdxLocalization.Files.Store

/-!
# Reading back what was written

A file that was written is found again under the same path, with the bytes that were written. The
point is that writing a file does not change where the path leads: every directory on the way is
still one afterwards, since the place that was written was none.
-/

namespace MdxLocalization.FileStore

/-! ### Places and their files -/

theorem put_cons (place : Place) (bytes : Bytes) (file : Place × Bytes)
    (rest : List (Place × Bytes)) :
    put place bytes (file :: rest) =
      if file.1 = place then (place, bytes) :: rest else file :: put place bytes rest := rfl

theorem lookup_put_self (place : Place) (bytes : Bytes) (files : List (Place × Bytes)) :
    (put place bytes files).lookup place = some bytes := by
  induction files with
  | nil =>
      simp [put]
  | cons file files hypothesis =>
      rw [put_cons]
      by_cases same : file.1 = place
      · rw [if_pos same]
        simp
      · have other : (place == file.1) = false := by simpa using Ne.symm same
        rw [if_neg same, List.lookup_cons, other]
        exact hypothesis

theorem lookup_put_of_ne {place other : Place} (apart : other ≠ place) (bytes : Bytes)
    (files : List (Place × Bytes)) :
    (put place bytes files).lookup other = files.lookup other := by
  have differs : (other == place) = false := by simpa using apart
  induction files with
  | nil =>
      simp [put, List.lookup_cons, differs]
  | cons file files hypothesis =>
      rw [put_cons]
      by_cases same : file.1 = place
      · rw [if_pos same, List.lookup_cons, List.lookup_cons, same, differs]
      · rw [if_neg same, List.lookup_cons, List.lookup_cons, hypothesis]

/-- No place loses its file. -/
theorem exists_mem_put (place : Place) (bytes : Bytes) {files : List (Place × Bytes)}
    {file : Place × Bytes} (member : file ∈ files) :
    ∃ kept ∈ put place bytes files, kept.1 = file.1 := by
  induction files with
  | nil =>
      cases member
  | cons first files hypothesis =>
      rw [put_cons]
      by_cases same : first.1 = place
      · rw [if_pos same]
        rcases List.mem_cons.mp member with rfl | later
        · exact ⟨(place, bytes), List.mem_cons_self, same.symm⟩
        · exact ⟨file, List.mem_cons_of_mem _ later, rfl⟩
      · rw [if_neg same]
        rcases List.mem_cons.mp member with rfl | later
        · exact ⟨file, List.mem_cons_self, rfl⟩
        · obtain ⟨kept, inside, place⟩ := hypothesis later
          exact ⟨kept, List.mem_cons_of_mem _ inside, place⟩

/-! ### Directories stay directories -/

variable {s : FileStore} {place : Place} {bytes : Bytes}

theorem isDirectory_of_isOutermost (outermost : place.isOutermost = true) :
    s.isDirectory place = true := by
  unfold isDirectory fileAt?
  rw [if_pos outermost, outermost]
  rfl

theorem fileAt?_put_self (noDirectory : s.isDirectory place = false) :
    ({ s with files := put place bytes s.files } : FileStore).fileAt? place = some bytes := by
  have inner : ¬ place.isOutermost = true := by
    intro outermost
    rw [isDirectory_of_isOutermost outermost] at noDirectory
    cases noDirectory
  unfold fileAt?
  rw [if_neg inner, lookup_put_self]

theorem fileAt?_put_of_ne {other : Place} (apart : other ≠ place) :
    ({ s with files := put place bytes s.files } : FileStore).fileAt? other = s.fileAt? other := by
  unfold fileAt?
  rw [lookup_put_of_ne apart]

theorem isDirectory_put {other : Place} (apart : other ≠ place)
    (directory : s.isDirectory other = true) :
    ({ s with files := put place bytes s.files } : FileStore).isDirectory other = true := by
  unfold isDirectory at directory ⊢
  simp only [Bool.and_eq_true, Bool.or_eq_true, List.any_eq_true] at directory ⊢
  rw [fileAt?_put_of_ne apart]
  refine ⟨directory.1, ?_⟩
  rcases directory.2 with known | ⟨file, member, above⟩
  · exact .inl known
  · obtain ⟨kept, inside, samePlace⟩ := exists_mem_put place bytes member
    exact .inr ⟨kept, inside, by rw [samePlace]; exact above⟩

/-- The first step of a way is taken from a directory. -/
theorem walk_cons_ok_iff {start goal : Place} {name : Text} {names : List Text} :
    s.walk start (name :: names) = .ok goal ↔
      s.isDirectory start = true ∧
        s.walk (if name = parentName then start.above else start ++ [name]) names = .ok goal := by
  change (if s.isDirectory start then _ else _) = _ ↔ _
  cases s.isDirectory start with
  | false =>
      simp only [Bool.false_eq_true, if_false, false_and, iff_false]
      split <;> exact nofun
  | true =>
      simp only [if_true, true_and]

/-- A way through directories leads to the same place after a file was put where no directory
was. -/
theorem walk_put (noDirectory : s.isDirectory place = false) {start goal : Place}
    {names : List Text} (led : s.walk start names = .ok goal) :
    ({ s with files := put place bytes s.files } : FileStore).walk start names = .ok goal := by
  induction names generalizing start with
  | nil =>
      exact led
  | cons name names hypothesis =>
      obtain ⟨directory, onward⟩ := walk_cons_ok_iff.mp led
      have apart : start ≠ place := by
        rintro rfl
        rw [directory] at noDirectory
        cases noDirectory
      exact walk_cons_ok_iff.mpr ⟨isDirectory_put apart directory, hypothesis onward⟩

/-! ### Reading after writing -/

theorem walk_of_locate {p : Path} (led : s.locate p = .ok place) :
    s.walk (Place.start p) p.names = .ok place := by
  unfold locate at led
  cases outcome : s.walk (Place.start p) p.names with
  | error fault =>
      rw [outcome] at led
      cases led
  | ok other =>
      rw [outcome] at led
      cases led
      rfl

theorem write_of_locate {p : Path} (led : s.locate p = .ok place)
    (noDirectory : s.isDirectory place = false) (bytes : Bytes) :
    s.write p bytes = .ok { s with files := put place bytes s.files } := by
  unfold write
  rw [led]
  simp [bind, Except.bind, noDirectory]

/-- What was written is read back. -/
theorem read_of_write {p : Path} {written : FileStore} (success : s.write p bytes = .ok written) :
    written.read p = .ok bytes := by
  cases led : s.locate p with
  | error fault =>
      rw [write, led] at success
      cases success
  | ok place =>
      cases directory : s.isDirectory place with
      | true =>
          rw [write, led] at success
          simp [bind, Except.bind, directory] at success
      | false =>
          rw [write_of_locate led directory] at success
          cases success
          have relocated : ({ s with files := put place bytes s.files } : FileStore).locate p =
              .ok place := by
            unfold locate
            rw [walk_put directory (walk_of_locate led)]
            rfl
          unfold read
          rw [relocated]
          simp only [bind, Except.bind, fileAt?_put_self directory]

/-! ### Paths that can be written -/

/-- A path can be written once the directories above it have been made. -/
def Writable (s : FileStore) (p : Path) : Prop :=
  ∃ made place, s.makeDirectories p.parent = (made, .ok ()) ∧ made.locate p = .ok place ∧
    made.isDirectory place = false

/-- Before its last name a way has come to a directory. -/
theorem walk_append_name {start goal : Place} {names : List Text} {name : Text}
    (led : s.walk start (names ++ [name]) = .ok goal) :
    ∃ last, s.walk start names = .ok last ∧ s.isDirectory last = true := by
  induction names generalizing start with
  | nil =>
      exact ⟨start, rfl, (walk_cons_ok_iff.mp led).1⟩
  | cons first names hypothesis =>
      obtain ⟨directory, onward⟩ := walk_cons_ok_iff.mp led
      obtain ⟨last, before, above⟩ := hypothesis onward
      exact ⟨last, walk_cons_ok_iff.mpr ⟨directory, before⟩, above⟩

theorem makeDirectories_of_isDirectory {p : Path} (led : s.locate p = .ok place)
    (directory : s.isDirectory place = true) : s.makeDirectories p = (s, .ok ()) := by
  have made : s.makeDirectory p = .ok s := by
    unfold makeDirectory
    rw [led]
    simp [bind, Except.bind, directory]
  unfold makeDirectories
  cases p.names.length <;> simp [makeDirectoriesWithin, made]

theorem isOutermost_start (p : Path) : (Place.start p).isOutermost = true := by
  unfold Place.start
  cases p.root <;> rfl

/-- What can be read has a name: a path without names leads to a directory. -/
theorem names_ne_nil_of_read {p : Path} (found : s.read p = .ok bytes) : p.names ≠ [] := by
  intro unnamed
  have led : s.locate p = .ok (Place.start p) := by
    unfold locate
    rw [unnamed]
    rfl
  have noFile : s.fileAt? (Place.start p) = none := by
    unfold fileAt?
    rw [if_pos (isOutermost_start p)]
  rw [read, led] at found
  simp [bind, Except.bind, noFile] at found

/-- A file that can be read can be written. -/
theorem writable_of_read {p : Path} (found : s.read p = .ok bytes) : s.Writable p := by
  cases led : s.locate p with
  | error fault =>
      rw [read, led] at found
      cases found
  | ok place =>
      have file : (s.fileAt? place).isSome = true := by
        rw [read, led] at found
        cases there : s.fileAt? place with
        | none =>
            simp [bind, Except.bind, there] at found
        | some bytes =>
            rfl
      have noDirectory : s.isDirectory place = false := by
        unfold isDirectory
        rw [Option.isSome_iff_ne_none] at file
        simp [file]
      have walked := walk_of_locate led
      rw [← List.dropLast_concat_getLast (names_ne_nil_of_read found)] at walked
      obtain ⟨last, above, directory⟩ := walk_append_name walked
      have parent : s.locate p.parent = .ok last := by
        have begins : Place.start p.parent = Place.start p := rfl
        have names : p.parent.names = p.names.dropLast := rfl
        unfold locate
        rw [begins, names, above]
        rfl
      exact ⟨s, place, makeDirectories_of_isDirectory parent directory, led, noDirectory⟩

end MdxLocalization.FileStore
