import MdxLocalization.Proofs.UpdateOutcome

/-!
# Making directories

Stores are compared by their directories: every directory of one is a directory of the other. A way
through the first is then a way through the second. Making a directory adds what has to be there for
it and nothing else, so that it stays within every larger store that has the directory already; and
a file that is put into a directory adds no directory at all.
-/

namespace MdxLocalization.FileStore

variable {s u : FileStore} {place : Place} {p : Path}

/-- Every directory of a store is a directory of another one. -/
def Within (s u : FileStore) : Prop :=
  ∀ place, s.isDirectory place = true → u.isDirectory place = true

theorem Within.refl (s : FileStore) : s.Within s := fun _ directory => directory

theorem Within.trans {v : FileStore} (first : s.Within u) (second : u.Within v) : s.Within v :=
  fun place directory => second place (first place directory)

/-! ### Ways through directories -/

theorem Within.walk (within : s.Within u) {start goal : Place} {names : List Text}
    (led : s.walk start names = .ok goal) : u.walk start names = .ok goal := by
  induction names generalizing start with
  | nil =>
      exact led
  | cons name names hypothesis =>
      obtain ⟨directory, onward⟩ := walk_cons_ok_iff.mp led
      exact walk_cons_ok_iff.mpr ⟨within start directory, hypothesis onward⟩

theorem locate_of_walk (led : s.walk (Place.start p) p.names = .ok place) :
    s.locate p = .ok place := by
  unfold locate
  rw [led]
  rfl

theorem Within.locate (within : s.Within u) (led : s.locate p = .ok place) :
    u.locate p = .ok place :=
  locate_of_walk (within.walk (walk_of_locate led))

/-- A way with one more name goes on from a directory. -/
theorem walk_concat {start : Place} {names : List Text} (name : Text)
    (led : s.walk start names = .ok place) (directory : s.isDirectory place = true) :
    s.walk start (names ++ [name]) =
      .ok (if name = parentName then place.above else place ++ [name]) := by
  induction names generalizing start with
  | nil =>
      cases led
      exact walk_cons_ok_iff.mpr ⟨directory, rfl⟩
  | cons first names hypothesis =>
      obtain ⟨opens, onward⟩ := walk_cons_ok_iff.mp led
      exact walk_cons_ok_iff.mpr ⟨opens, hypothesis onward⟩

theorem leadsToDirectory_iff :
    s.leadsToDirectory p = true ↔ ∃ place, s.locate p = .ok place ∧ s.isDirectory place = true := by
  unfold leadsToDirectory
  cases s.locate p with
  | error e =>
      simp
  | ok place =>
      simp

theorem Within.leadsToDirectory (within : s.Within u) (leads : s.leadsToDirectory p = true) :
    u.leadsToDirectory p = true := by
  obtain ⟨place, led, directory⟩ := leadsToDirectory_iff.mp leads
  exact leadsToDirectory_iff.mpr ⟨place, within.locate led, within place directory⟩

theorem Within.leadsToDirectory_eq_false (within : s.Within u)
    (free : u.leadsToDirectory p = false) : s.leadsToDirectory p = false := by
  cases leads : s.leadsToDirectory p with
  | false =>
      rfl
  | true =>
      rw [within.leadsToDirectory leads] at free
      cases free

theorem leadsToDirectory_parent (leads : s.leadsToDirectory p = true) :
    s.leadsToDirectory p.parent = true := by
  by_cases unnamed : p.names = []
  · have same : p.parent = p := by
      unfold Path.parent
      rw [unnamed, List.dropLast_nil, ← unnamed]
    rw [same]
    exact leads
  · obtain ⟨place, led, -⟩ := leadsToDirectory_iff.mp leads
    have walked := walk_of_locate led
    rw [← List.dropLast_concat_getLast unnamed] at walked
    obtain ⟨last, above, directory⟩ := walk_append_name walked
    exact leadsToDirectory_iff.mpr ⟨last, locate_of_walk above, directory⟩

/-! ### Above a directory -/

theorem isOutermost_of_isPrefix {upper : Place} (inside : upper <+: place)
    (outermost : place.isOutermost = true) : upper.isOutermost = true := by
  unfold Place.isOutermost at outermost ⊢
  rw [Bool.or_eq_true] at outermost ⊢
  rcases outermost with parents | root
  · refine .inl (List.all_eq_true.mpr fun name member => ?_)
    exact List.all_eq_true.mp parents name (inside.subset member)
  · cases place with
    | nil =>
        cases root
    | cons name rest =>
        cases rest with
        | cons second rest =>
            cases root
        | nil =>
            rcases List.prefix_cons_iff.mp inside with rfl | ⟨tail, rfl, rest⟩
            · exact .inl rfl
            · rw [List.prefix_nil.mp rest]
              exact .inr root

theorem isDirectory_iff :
    s.isDirectory place = true ↔ s.fileAt? place = none ∧
      (place.isOutermost = true ∨ (∃ made ∈ s.directories, place <+: made) ∨
        ∃ file ∈ s.files, place <+: file.1 ∧ place ≠ file.1) := by
  unfold isDirectory Place.isAbove
  simp only [Bool.and_eq_true, Bool.or_eq_true, List.any_eq_true, List.isPrefixOf_iff_prefix,
    bne_iff_ne, Option.isNone_iff_eq_none, or_assoc]

/-- What lies above a directory is a directory unless it is a file. -/
theorem isDirectory_of_isPrefix {upper : Place} (directory : s.isDirectory place = true)
    (inside : upper <+: place) (noFile : s.fileAt? upper = none) : s.isDirectory upper = true := by
  obtain ⟨-, outermost | ⟨made, member, below⟩ | ⟨file, member, below, apart⟩⟩ :=
    isDirectory_iff.mp directory
  · exact isDirectory_iff.mpr ⟨noFile, .inl (isOutermost_of_isPrefix inside outermost)⟩
  · exact isDirectory_iff.mpr ⟨noFile, .inr (.inl ⟨made, member, inside.trans below⟩)⟩
  · refine isDirectory_iff.mpr ⟨noFile, .inr (.inr ⟨file, member, inside.trans below, ?_⟩)⟩
    rintro rfl
    exact apart (below.eq_of_length_le inside.length_le)

/-- A step back from a directory comes to a directory unless there is a file. -/
theorem isDirectory_above (directory : s.isDirectory place = true)
    (noFile : s.fileAt? place.above = none) : s.isDirectory place.above = true := by
  unfold Place.above at noFile ⊢
  split
  · exact directory
  · rename_i inner
    rw [if_neg inner] at noFile
    split
    · rename_i outermost
      refine isDirectory_of_isOutermost ?_
      have parents : place.all (· == parentName) = true := by
        simpa [Place.isOutermost, inner] using outermost
      unfold Place.isOutermost
      simp [List.all_append, parents]
    · rename_i inside
      rw [if_neg inside] at noFile
      exact isDirectory_of_isPrefix directory (List.dropLast_prefix place) noFile

/-- What is neither directory nor file lies right below a directory. -/
theorem exists_of_locate_missing (led : s.locate p = .ok place)
    (noDirectory : s.isDirectory place = false) (noFile : s.fileAt? place = none) :
    ∃ last name, s.isDirectory last = true ∧ place = last ++ [name] := by
  have walked := walk_of_locate led
  by_cases unnamed : p.names = []
  · rw [unnamed] at walked
    cases walked
    rw [isDirectory_of_isOutermost (isOutermost_start p)] at noDirectory
    cases noDirectory
  · rw [← List.dropLast_concat_getLast unnamed] at walked
    obtain ⟨last, above, directory⟩ := walk_append_name walked
    rw [walk_concat _ above directory] at walked
    split at walked
    · cases walked
      rw [isDirectory_above directory noFile] at noDirectory
      cases noDirectory
    · cases walked
      exact ⟨last, _, directory, rfl⟩

/-! ### Making directories -/

section Making

variable {made : FileStore}

/-- Directories that were made come to those that were there. -/
theorem within_of_directories (files : made.files = s.files)
    (more : s.directories ⊆ made.directories) : s.Within made := by
  intro place directory
  obtain ⟨noFile, outermost | ⟨known, member, below⟩ | below⟩ := isDirectory_iff.mp directory
  · exact isDirectory_of_isOutermost outermost
  · exact isDirectory_iff.mpr
      ⟨(fileAt?_of_files files place).trans noFile, .inr (.inl ⟨known, more member, below⟩)⟩
  · exact isDirectory_iff.mpr
      ⟨(fileAt?_of_files files place).trans noFile, .inr (.inr (files ▸ below))⟩

/-- One directory is made at most, where neither a directory nor a file is. -/
theorem of_makeDirectory_ok (success : s.makeDirectory p = .ok made) :
    ∃ place, s.locate p = .ok place ∧
      (s.isDirectory place = true ∧ made = s ∨
        s.isDirectory place = false ∧ s.fileAt? place = none ∧
          made = { s with directories := s.directories ++ [place] }) := by
  unfold makeDirectory at success
  cases led : s.locate p with
  | error e =>
      rw [led] at success
      cases success
  | ok place =>
      refine ⟨place, rfl, ?_⟩
      rw [led] at success
      simp only [bind, Except.bind] at success
      cases directory : s.isDirectory place with
      | true =>
          rw [directory] at success
          cases success
          exact .inl ⟨rfl, rfl⟩
      | false =>
          rw [directory] at success
          cases there : s.fileAt? place with
          | some bytes =>
              simp [there] at success
          | none =>
              simp only [there, Option.isSome_none, Bool.false_eq_true, if_false] at success
              cases success
              exact .inr ⟨rfl, rfl, rfl⟩

/-- A directory that was made leads to one, and comes to those that were there. -/
theorem makeDirectory_spec (success : s.makeDirectory p = .ok made) :
    s.Within made ∧ made.leadsToDirectory p = true := by
  obtain ⟨place, led, ⟨directory, rfl⟩ | ⟨-, noFile, rfl⟩⟩ := of_makeDirectory_ok success
  · exact ⟨.refl made, leadsToDirectory_iff.mpr ⟨place, led, directory⟩⟩
  · have grows : s.Within { s with directories := s.directories ++ [place] } :=
      within_of_directories rfl (List.subset_append_left _ _)
    refine ⟨grows, leadsToDirectory_iff.mpr ⟨place, grows.locate led, isDirectory_iff.mpr ?_⟩⟩
    exact ⟨noFile, .inr (.inl ⟨place, List.mem_append_right _ List.mem_cons_self, List.prefix_rfl⟩)⟩

/-- A larger store that has a directory already is still larger when the directory has been made. -/
theorem makeDirectory_within (success : s.makeDirectory p = .ok made) (within : s.Within u)
    (leads : u.leadsToDirectory p = true) : made.Within u := by
  obtain ⟨place, led, ⟨-, rfl⟩ | ⟨noDirectory, noFile, rfl⟩⟩ := of_makeDirectory_ok success
  · exact within
  · obtain ⟨last, name, above, rfl⟩ := exists_of_locate_missing led noDirectory noFile
    obtain ⟨target, ledThere, sought⟩ := leadsToDirectory_iff.mp leads
    rw [within.locate led] at ledThere
    cases ledThere
    intro upper isMade
    -- What is a directory now was one before, or is the new one, or lies above it.
    obtain ⟨none, outermost | ⟨known, member, below⟩ | below⟩ := isDirectory_iff.mp isMade
    · exact isDirectory_of_isOutermost outermost
    · rcases List.mem_append.mp member with old | new
      · exact within upper (isDirectory_iff.mpr ⟨none, .inr (.inl ⟨known, old, below⟩)⟩)
      · rw [List.mem_singleton.mp new] at below
        rcases List.prefix_concat_iff.mp below with rfl | inside
        · exact sought
        · exact within upper (isDirectory_of_isPrefix above inside none)
    · exact within upper (isDirectory_iff.mpr ⟨none, .inr (.inr below)⟩)

/-- What is true of one directory made is true of several. -/
theorem makeDirectoriesWithin_spec (budget : Nat)
    (success : makeDirectoriesWithin budget s p = (made, .ok ())) :
    s.Within made ∧ made.leadsToDirectory p = true ∧
      ∀ u : FileStore, s.Within u → u.leadsToDirectory p = true → made.Within u := by
  induction budget generalizing s p made with
  | zero =>
      unfold makeDirectoriesWithin at success
      split at success <;> cases success
      rename_i success
      obtain ⟨grows, leads⟩ := makeDirectory_spec success
      exact ⟨grows, leads, fun u => makeDirectory_within success⟩
  | succ budget hypothesis =>
      unfold makeDirectoriesWithin at success
      split at success
      · cases success
        rename_i success
        obtain ⟨grows, leads⟩ := makeDirectory_spec success
        exact ⟨grows, leads, fun u => makeDirectory_within success⟩
      · split at success
        · split at success
          · cases success
          · rename_i between above
            split at success <;> cases success
            rename_i success
            obtain ⟨first, -, least⟩ := hypothesis above
            obtain ⟨grows, leads⟩ := makeDirectory_spec success
            exact ⟨first.trans grows, leads, fun u within there =>
              makeDirectory_within success (least u within (leadsToDirectory_parent there)) there⟩
        · cases success

end Making

/-! ### Putting files into directories -/

theorem mem_put {bytes : Bytes} {files : List (Place × Bytes)} {file : Place × Bytes}
    (member : file ∈ put place bytes files) : file ∈ files ∨ file.1 = place := by
  induction files with
  | nil =>
      exact .inr (congrArg Prod.fst (List.mem_singleton.mp member))
  | cons first files hypothesis =>
      rw [put_cons] at member
      split at member
      · rcases List.mem_cons.mp member with rfl | later
        · exact .inr rfl
        · exact .inl (List.mem_cons_of_mem _ later)
      · rcases List.mem_cons.mp member with rfl | later
        · exact .inl List.mem_cons_self
        · exact (hypothesis later).imp_left (List.mem_cons_of_mem _)

/-- A file that is put right below a directory adds no directory and takes none away. -/
theorem isDirectory_put_iff {last : Place} {name : Text} (above : s.isDirectory last = true)
    (free : s.isDirectory (last ++ [name]) = false) (bytes : Bytes) (other : Place) :
    ({ s with files := put (last ++ [name]) bytes s.files } : FileStore).isDirectory other = true ↔
      s.isDirectory other = true := by
  by_cases same : other = last ++ [name]
  · subst same
    rw [free]
    simp [isDirectory, fileAt?_put_self free]
  · refine ⟨fun directory => ?_, isDirectory_put same⟩
    obtain ⟨none, outermost | known | ⟨file, member, below, apart⟩⟩ := isDirectory_iff.mp directory
    · exact isDirectory_of_isOutermost outermost
    · rw [fileAt?_put_of_ne same] at none
      exact isDirectory_iff.mpr ⟨none, .inr (.inl known)⟩
    · rw [fileAt?_put_of_ne same] at none
      rcases mem_put member with old | new
      · exact isDirectory_iff.mpr ⟨none, .inr (.inr ⟨file, old, below, apart⟩)⟩
      · rw [new] at below
        rcases List.prefix_concat_iff.mp below with same' | inside
        · exact absurd same' same
        · exact isDirectory_of_isPrefix above inside none

end MdxLocalization.FileStore
