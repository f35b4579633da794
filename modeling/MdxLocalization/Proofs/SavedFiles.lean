import MdxLocalization.Proofs.DirectoryMaking
import MdxLocalization.Proofs.TextPieces

/-!
# Saving files in directories

A run that makes some directories and writes files right into them is told by two lists: the
directories, and what was written, in order. `Saves` says what such a run makes of a store. Each file
ends up with what was written to its place last; nothing else changes but that the directories are
there.
-/

namespace MdxLocalization

theorem Except.toOption_eq_some {ε α : Type} {x : Except ε α} {a : α} :
    x.toOption = some a ↔ x = .ok a := by
  cases x <;> simp [Except.toOption]

namespace Path

/-- A name by which a directory leads to something in it. -/
def IsProperName (name : Text) : Prop := '/' ∉ name ∧ name ∉ [[], ['.'], parentName]

theorem child_of_isProperName {name : Text} (proper : IsProperName name) (p : Path) :
    p.child name = { p with names := p.names ++ [name] } := by
  obtain ⟨noSlash, named⟩ := proper
  simp only [List.mem_cons, List.not_mem_nil, or_false, not_or] at named
  obtain ⟨notEmpty, notPoint, -⟩ := named
  have noSlashes : Text.countWhile (· == '/') name = 0 := by
    cases name with
    | nil =>
        rfl
    | cons c rest =>
        have other : (c == '/') = false := by
          simpa using (List.ne_of_not_mem_cons noSlash).symm
        simp [Text.countWhile, other]
  have whole : ofText name = ⟨.relative, [name]⟩ := by
    unfold ofText
    rw [noSlashes, Text.splitOn_of_not_mem noSlash]
    simp [notEmpty, notPoint]
  unfold child join
  rw [whole]
  rfl

theorem isProperName_append {base suffix : Text} (plainBase : '/' ∉ base) (plain : '/' ∉ suffix)
    (long : 2 < suffix.length) : IsProperName (base ++ suffix) := by
  refine ⟨by simp [plainBase, plain], fun member => ?_⟩
  have short : (base ++ suffix).length ≤ 2 := by
    rcases List.mem_cons.mp member with same | member
    · simp [same]
    · rcases List.mem_cons.mp member with same | member
      · simp [same]
      · rw [List.mem_singleton.mp member]
        decide
  rw [List.length_append] at short
  omega

theorem slash_not_mem_name (t : Text) : '/' ∉ (ofText t).name := by
  unfold name
  cases last : (ofText t).names.getLast? with
  | none =>
      exact List.not_mem_nil
  | some piece =>
      have member : piece ∈ (ofText t).names := List.mem_of_getLast? last
      exact Text.not_mem_of_mem_splitOn (List.mem_filter.mp member).1

end Path

namespace FileStore

variable {s s' s'' : FileStore} {dirs dirs' : List Path} {writes writes' : List (Path × Bytes)}
  {p : Path} {name : Text} {bytes : Bytes}

theorem locate_child {last : Place} (led : s.locate p = .ok last)
    (directory : s.isDirectory last = true) (proper : Path.IsProperName name) :
    s.locate (p.child name) = .ok (last ++ [name]) := by
  have other : name ≠ parentName := by
    rintro rfl
    exact proper.2 (by simp)
  rw [Path.child_of_isProperName proper]
  apply locate_of_walk
  refine (walk_concat name (walk_of_locate led) directory).trans ?_
  rw [if_neg other]

theorem read_eq_ok_iff :
    s.read p = .ok bytes ↔ ∃ place, s.locate p = .ok place ∧ s.fileAt? place = some bytes := by
  unfold read
  cases s.locate p with
  | error e =>
      simp [bind, Except.bind]
  | ok place =>
      cases there : s.fileAt? place <;> simp [bind, Except.bind, there]

theorem mem_of_fileAt? {place : Place} (there : s.fileAt? place = some bytes) :
    (place, bytes) ∈ s.files := by
  unfold fileAt? at there
  split at there
  · cases there
  · obtain ⟨before, behind, cut, -⟩ := List.lookup_eq_some_iff.mp there
    rw [cut]
    exact List.mem_append_right _ List.mem_cons_self

/-- What was written, by the places to which the paths lead. -/
def placed (s : FileStore) (writes : List (Path × Bytes)) : List (Place × Bytes) :=
  writes.filterMap fun write => (s.locate write.1).toOption.map (·, write.2)

theorem mem_placed {place : Place} :
    (place, bytes) ∈ s.placed writes ↔ ∃ p, (p, bytes) ∈ writes ∧ s.locate p = .ok place := by
  unfold placed
  simp only [List.mem_filterMap, Option.map_eq_some_iff, Prod.mk.injEq, Except.toOption_eq_some]
  constructor
  · rintro ⟨⟨p, written⟩, member, found, led, rfl, rfl⟩
    exact ⟨p, member, led⟩
  · rintro ⟨p, member, led⟩
    exact ⟨(p, bytes), member, place, led, rfl, rfl⟩

theorem Within.placed (within : s.Within s')
    (located : ∀ write ∈ writes, ∃ place, s.locate write.1 = .ok place) :
    s'.placed writes = s.placed writes := by
  refine List.filterMap_congr fun write member => ?_
  obtain ⟨place, led⟩ := located write member
  rw [led, within.locate led]

/-- What making directories and then writing files in them makes of a store. -/
structure Saves (dirs : List Path) (writes : List (Path × Bytes)) (s s' : FileStore) : Prop where
  grows : s.Within s'
  least : ∀ u : FileStore, s.Within u → (∀ dir ∈ dirs, u.leadsToDirectory dir = true) → s'.Within u
  made : ∀ dir ∈ dirs, s'.leadsToDirectory dir = true
  located : ∀ write ∈ writes, ∃ place, s'.locate write.1 = .ok place
  stored : ∀ place, s'.fileAt? place =
    ((s'.placed writes).reverse.lookup place).or (s.fileAt? place)

namespace Saves

/-! ### Steps -/

theorem refl (s : FileStore) : Saves [] [] s s where
  grows := .refl s
  least _ within _ := within
  made := by simp
  located := by simp
  stored _ := rfl

theorem trans (first : Saves dirs writes s s') (second : Saves dirs' writes' s' s'') :
    Saves (dirs ++ dirs') (writes ++ writes') s s'' where
  grows := first.grows.trans second.grows
  least u within there := by
    obtain ⟨thereFirst, thereSecond⟩ := List.forall_mem_append.mp there
    exact second.least u (first.least u within thereFirst) thereSecond
  made := List.forall_mem_append.mpr
    ⟨fun dir member => second.grows.leadsToDirectory (first.made dir member), second.made⟩
  located := by
    refine List.forall_mem_append.mpr ⟨fun write member => ?_, second.located⟩
    obtain ⟨place, led⟩ := first.located write member
    exact ⟨place, second.grows.locate led⟩
  stored place := by
    have earlier := second.grows.placed first.located
    unfold placed at earlier ⊢
    rw [List.filterMap_append, earlier, List.reverse_append, List.lookup_append, Option.or_assoc,
      second.stored, first.stored]
    rfl

theorem of_makeDirectories (success : s.makeDirectories p = (s', .ok ())) :
    Saves [p] [] s s' := by
  obtain ⟨grows, leads, least⟩ := makeDirectoriesWithin_spec p.names.length success
  have files : s'.files = s.files := by
    have kept := files_makeDirectoriesWithin p.names.length s p
    unfold makeDirectories at success
    rw [success] at kept
    exact kept
  exact ⟨grows, fun u within there => least u within (there p List.mem_cons_self),
    fun dir member => List.mem_singleton.mp member ▸ leads, by simp,
    fun place => fileAt?_of_files files place⟩

theorem of_write (leads : s.leadsToDirectory p = true) (proper : Path.IsProperName name)
    (success : s.write (p.child name) bytes = .ok s') :
    Saves [] [(p.child name, bytes)] s s' := by
  obtain ⟨last, led, above⟩ := leadsToDirectory_iff.mp leads
  have ledChild := locate_child led above proper
  cases free : s.isDirectory (last ++ [name]) with
  | true =>
      rw [write, ledChild] at success
      simp [bind, Except.bind, free] at success
  | false =>
      rw [write_of_locate ledChild free] at success
      cases success
      have same := isDirectory_put_iff above free bytes
      have grows : s.Within { s with files := put (last ++ [name]) bytes s.files } :=
        fun place directory => (same place).mpr directory
      refine ⟨grows, fun u within _ place directory => within place ((same place).mp directory),
        by simp, fun write member => ?_, fun place => ?_⟩
      · rw [List.mem_singleton.mp member]
        exact ⟨_, grows.locate ledChild⟩
      · have only : FileStore.placed { s with files := put (last ++ [name]) bytes s.files }
            [(p.child name, bytes)] = [(last ++ [name], bytes)] := by
          unfold placed
          rw [List.filterMap_cons, grows.locate ledChild]
          rfl
        rw [only]
        by_cases here : place = last ++ [name]
        · subst here
          rw [fileAt?_put_self free]
          simp
        · have other : (place == last ++ [name]) = false := by simpa using here
          rw [fileAt?_put_of_ne here]
          simp [List.lookup_cons, other]

/-! ### What is there afterwards -/

/-- A path that was written leads to a file, with something that was written there. -/
theorem exists_file (saves : Saves dirs writes s s') (member : (p, bytes) ∈ writes) :
    ∃ place content, s'.locate p = .ok place ∧ s'.fileAt? place = some content ∧
      (place, content) ∈ s'.placed writes := by
  obtain ⟨place, led⟩ := saves.located _ member
  have written : (place, bytes) ∈ (s'.placed writes).reverse :=
    List.mem_reverse.mpr (mem_placed.mpr ⟨p, member, led⟩)
  cases found : (s'.placed writes).reverse.lookup place with
  | none =>
      have absent := List.lookup_eq_none_iff.mp found _ written
      simp at absent
  | some content =>
      refine ⟨place, content, led, ?_, ?_⟩
      · rw [saves.stored, found]
        rfl
      · obtain ⟨before, behind, cut, -⟩ := List.lookup_eq_some_iff.mp found
        rw [← List.mem_reverse, cut]
        exact List.mem_append_right _ List.mem_cons_self

theorem leadsToDirectory_eq_false (saves : Saves dirs writes s s') (member : (p, bytes) ∈ writes) :
    s'.leadsToDirectory p = false := by
  obtain ⟨place, content, led, there, -⟩ := saves.exists_file member
  unfold leadsToDirectory isDirectory
  simp [led, there]

/-- A file holds what was written to it, if everything that was written there is the same. -/
theorem read_eq_ok (saves : Saves dirs writes s s') (member : (p, bytes) ∈ writes)
    (agree : ∀ write ∈ writes, s'.locate write.1 = s'.locate p → write.2 = bytes) :
    s'.read p = .ok bytes := by
  obtain ⟨place, content, led, there, written⟩ := saves.exists_file member
  obtain ⟨other, isWrite, ledOther⟩ := mem_placed.mp written
  have same : content = bytes := agree _ isWrite (ledOther.trans led.symm)
  exact read_eq_ok_iff.mpr ⟨place, led, same ▸ there⟩

/-- The same is written to two stores of which one is within the other. -/
theorem fileAt?_congr {t t' : FileStore} (saves : Saves dirs writes s s')
    (saves' : Saves dirs' writes t t') (within : s'.Within t') {place : Place}
    (same : s.fileAt? place = t.fileAt? place) : s'.fileAt? place = t'.fileAt? place := by
  rw [saves.stored, saves'.stored, within.placed saves.located, same]

/-- A file that is not touched when something is written to a store is not touched when the same is
written to a larger one. -/
theorem read_eq_ok_of_within {t t' : FileStore} (saves : Saves dirs writes s s')
    (saves' : Saves dirs' writes t t') (larger : t.Within s) (within : s'.Within t')
    (here : s.read p = .ok bytes) (there : t.read p = .ok bytes)
    (untouched : t'.read p = .ok bytes) : s'.read p = .ok bytes := by
  obtain ⟨place, led, content⟩ := read_eq_ok_iff.mp there
  obtain ⟨placeHere, ledHere, contentHere⟩ := read_eq_ok_iff.mp here
  obtain ⟨placeAfter, ledAfter, contentAfter⟩ := read_eq_ok_iff.mp untouched
  rw [larger.locate led] at ledHere
  cases ledHere
  rw [saves'.grows.locate led] at ledAfter
  cases ledAfter
  refine read_eq_ok_iff.mpr ⟨place, (larger.trans saves.grows).locate led, ?_⟩
  rw [saves.fileAt?_congr saves' within (contentHere.trans content.symm)]
  exact contentAfter

end Saves

/-- Names that lead from directories to the same place are the same. -/
theorem name_eq_of_locate_child {q : Path} {name' : Text} (leads : s.leadsToDirectory p = true)
    (leads' : s.leadsToDirectory q = true) (proper : Path.IsProperName name)
    (proper' : Path.IsProperName name')
    (same : s.locate (p.child name) = s.locate (q.child name')) : name = name' := by
  obtain ⟨last, led, directory⟩ := leadsToDirectory_iff.mp leads
  obtain ⟨last', led', directory'⟩ := leadsToDirectory_iff.mp leads'
  rw [locate_child led directory proper, locate_child led' directory' proper'] at same
  exact List.singleton_inj.mp (List.append_inj' (Except.ok.inj same) rfl).2

end FileStore

/-! ### Runs that save files -/

namespace Run

open FileStore (Saves)

variable {w w' : Workspace} {p : Path} {name : Text}

theorem saves_makeDirectories (done : makeDirectories p w = (.ok (), w')) :
    Saves [p] [] w.files w'.files := by
  have result : (w.files.makeDirectories p).2 = .ok () := congrArg Prod.fst done
  have after : { w with files := (w.files.makeDirectories p).1 } = w' := congrArg Prod.snd done
  rw [← after]
  exact Saves.of_makeDirectories (Prod.ext rfl result)

theorem saves_writeFile (leads : w.files.leadsToDirectory p = true)
    (proper : Path.IsProperName name) {t : Text}
    (done : writeFile (p.child name) t w = (.ok (), w')) :
    Saves [] [(p.child name, Utf8.encode t)] w.files w'.files := by
  rw [writeFile_apply] at done
  split at done
  · rename_i files success
    cases done
    exact Saves.of_write leads proper success
  · cases done

theorem makeDirectories_eq_ok (leads : w.files.leadsToDirectory p = true) :
    makeDirectories p w = (.ok (), w) := by
  obtain ⟨place, led, directory⟩ := FileStore.leadsToDirectory_iff.mp leads
  unfold makeDirectories
  rw [FileStore.makeDirectories_of_isDirectory led directory]

theorem exists_writeFile_ok (leads : w.files.leadsToDirectory p = true)
    (proper : Path.IsProperName name) (free : w.files.leadsToDirectory (p.child name) = false)
    (t : Text) : ∃ w', writeFile (p.child name) t w = (.ok (), w') := by
  obtain ⟨last, led, directory⟩ := FileStore.leadsToDirectory_iff.mp leads
  have ledChild := FileStore.locate_child led directory proper
  have noDirectory : w.files.isDirectory (last ++ [name]) = false := by
    simpa [FileStore.leadsToDirectory, ledChild] using free
  rw [writeFile_apply, FileStore.write_of_locate ledChild noDirectory]
  exact ⟨_, rfl⟩

end Run

end MdxLocalization
