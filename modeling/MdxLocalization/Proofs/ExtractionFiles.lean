import MdxLocalization.Command.Action
import MdxLocalization.Proofs.Encoding
import MdxLocalization.Proofs.ExtractionSteps
import MdxLocalization.Proofs.SavedFiles

/-!
# The files of extracted documents

The files of an extraction are named for the last name of its document, whatever directory the
document is in. Documents that are extracted together into a directory are extracted as each of them
would be by itself, as long as none of them is written over. So each finds its payload and its page
in its files, unless another document of the same name comes after it with something else.
-/

namespace MdxLocalization

namespace Action

open Extraction (Drawn treeFile writeTree inspect)
open FileStore (Saves)

variable {config : Config} {directory document : Path} {w w' : Workspace} {root : Node}
  {e : Extraction}

/-! ### One document -/

/-- The directories into which the files of an extraction go. -/
def directories (config : Config) (directory : Path) : List Path :=
  config.debugDir.toList ++ [directory]

/-- What is written for an extraction, in order. -/
def writes (config : Config) (directory : Path) (root : Node) (e : Extraction) :
    List (Path × Bytes) :=
  config.debugDir.toList.map (fun inspection =>
    (treeFile inspection e.path, Utf8.encode (root.toJson.write (.indented 4)))) ++
  [(payloadFile directory e.path, Utf8.encode (e.payload (.indented 2))),
    (pageFile directory e.path, Utf8.encode e.page)]

/-- The files that hold an extraction. -/
def filesOf (directory document : Path) : List Path :=
  [payloadFile directory document, pageFile directory document]

/-- What is said when an extraction has been written. -/
def announcement (directory : Path) (e : Extraction) : Text :=
  Text.ofString "[green]✅ " ++ e.path.toText ++ Text.ofString "[/green]: " ++
    Text.ofNat e.changes.length ++ Text.ofString " 条变更 -> [cyan]" ++
    (payloadFile directory e.path).toText ++ Text.ofString "[/cyan]"

theorem payloadName_proper (named : '/' ∉ document.name) :
    Path.IsProperName (document.name ++ Text.ofString ".json") :=
  Path.isProperName_append named (by decide) (by decide)

theorem pageName_proper (named : '/' ∉ document.name) :
    Path.IsProperName (document.name ++ Text.ofString ".html") :=
  Path.isProperName_append named (by decide) (by decide)

theorem treeName_proper (named : '/' ∉ document.name) :
    Path.IsProperName (Text.ofString "ast-" ++ document.name ++ Text.ofString ".json") := by
  refine Path.isProperName_append ?_ (by decide) (by decide)
  rw [List.mem_append, not_or]
  exact ⟨by decide, named⟩

theorem saves_writeTree (named : '/' ∉ document.name) {inspection : Path}
    (done : writeTree root document inspection w = (.ok (), w')) :
    Saves [inspection]
      [(treeFile inspection document, Utf8.encode (root.toJson.write (.indented 4)))]
      w.files w'.files := by
  unfold writeTree at done
  obtain ⟨_, w₁, made, done⟩ := Run.of_bind_ok done
  obtain ⟨_, w₂, written, done⟩ := Run.of_bind_ok done
  cases done
  have first := Run.saves_makeDirectories made
  have leads := first.made inspection List.mem_cons_self
  have second := Run.saves_writeFile leads (treeName_proper named) written
  exact first.trans second

theorem exists_writeTree_ok (root : Node) (named : '/' ∉ document.name) {inspection : Path}
    (leads : w.files.leadsToDirectory inspection = true)
    (free : w.files.leadsToDirectory (treeFile inspection document) = false) :
    ∃ w', writeTree root document inspection w = (.ok (), w') := by
  obtain ⟨w₁, written⟩ := Run.exists_writeFile_ok leads (treeName_proper named) free
    (root.toJson.write (.indented 4))
  unfold writeTree
  rw [Run.bind_of_ok (Run.makeDirectories_eq_ok leads)]
  exact ⟨_, Run.bind_of_ok written⟩

theorem saves_inspect (named : '/' ∉ document.name)
    (done : inspect config root document w = (.ok (), w')) :
    Saves config.debugDir.toList
      (config.debugDir.toList.map fun inspection =>
        (treeFile inspection document, Utf8.encode (root.toJson.write (.indented 4))))
      w.files w'.files := by
  unfold inspect at done
  cases wanted : config.debugDir with
  | none =>
      rw [wanted] at done
      cases done
      exact .refl w.files
  | some inspection =>
      rw [wanted] at done
      exact saves_writeTree named (Run.of_mapError_ok done)

theorem exists_inspect_ok (named : '/' ∉ document.name)
    (there : ∀ inspection ∈ config.debugDir, w.files.leadsToDirectory inspection = true)
    (free : ∀ inspection ∈ config.debugDir,
      w.files.leadsToDirectory (treeFile inspection document) = false) :
    ∃ w', inspect config root document w = (.ok (), w') := by
  unfold inspect
  cases wanted : config.debugDir with
  | none =>
      exact ⟨w, rfl⟩
  | some inspection =>
      obtain ⟨w₁, written⟩ := exists_writeTree_ok root named (there inspection wanted)
        (free inspection wanted)
      exact ⟨w₁, Run.mapError_ok written⟩

theorem saves_writeExtraction (named : '/' ∉ e.path.name) {files : List Path}
    (done : writeExtraction directory e w = (.ok files, w')) :
    files = filesOf directory e.path ∧
      Saves [directory] [(payloadFile directory e.path, Utf8.encode (e.payload (.indented 2))),
        (pageFile directory e.path, Utf8.encode e.page)] w.files w'.files := by
  unfold writeExtraction at done
  obtain ⟨_, w₁, made, done⟩ := Run.of_bind_ok done
  obtain ⟨_, w₂, payload, done⟩ := Run.of_bind_ok done
  obtain ⟨_, w₃, page, done⟩ := Run.of_bind_ok done
  cases done
  have first := Run.saves_makeDirectories made
  have leads := first.made directory List.mem_cons_self
  have second := Run.saves_writeFile leads (payloadName_proper named) payload
  have third := Run.saves_writeFile (second.grows.leadsToDirectory leads) (pageName_proper named) page
  exact ⟨rfl, first.trans (second.trans third)⟩

theorem exists_writeExtraction_ok (named : '/' ∉ e.path.name)
    (leads : w.files.leadsToDirectory directory = true)
    (payloadFree : w.files.leadsToDirectory (payloadFile directory e.path) = false)
    (pageFree : w.files.leadsToDirectory (pageFile directory e.path) = false) :
    ∃ w', writeExtraction directory e w = (.ok (filesOf directory e.path), w') := by
  obtain ⟨w₁, payload⟩ := Run.exists_writeFile_ok leads (payloadName_proper named) payloadFree
    (e.payload (.indented 2))
  have first := Run.saves_writeFile leads (payloadName_proper named) payload
  have within : w₁.files.Within w.files := first.least w.files (.refl _) (by simp)
  obtain ⟨w₂, page⟩ := Run.exists_writeFile_ok (first.grows.leadsToDirectory leads)
    (pageName_proper named)
    (within.leadsToDirectory_eq_false pageFree) e.page
  refine ⟨w₂, ?_⟩
  unfold writeExtraction
  rw [Run.bind_of_ok (Run.makeDirectories_eq_ok leads)]
  exact (Run.bind_of_ok payload).trans (Run.bind_of_ok page)

theorem of_say_ok {markup : Text} (said : say markup w = (.ok (), w')) :
    (∃ shown, Console.message markup = .ok shown) ∧ w'.files = w.files := by
  unfold say at said
  obtain ⟨shown, w₁, given, printed⟩ := Run.of_bind_ok said
  obtain ⟨isShown, rfl⟩ := Run.of_ofExcept_mapError_ok given
  cases printed
  exact ⟨⟨shown, isShown⟩, rfl⟩

theorem exists_say_ok {markup shown : Text} (isShown : Console.message markup = .ok shown) :
    ∃ w', say markup w = (.ok (), w') := by
  unfold say
  rw [Run.bind_of_ok (Run.ofExcept_mapError_ok isShown)]
  exact ⟨_, rfl⟩

/-- What extracting one document writes, and from what it is drawn. -/
theorem of_extractOne_ok (named : '/' ∉ document.name) {files : List Path}
    (done : extractOne config (some directory) document w = (.ok files, w')) :
    files = filesOf directory document ∧ ∃ root e, e.path = document ∧
      (Extraction.ofFile config document w).1 = .ok e ∧ Drawn config w.files root e ∧
      (∃ shown, Console.message (announcement directory e) = .ok shown) ∧
      Saves (directories config directory) (writes config directory root e) w.files w'.files := by
  unfold extractOne at done
  obtain ⟨e, w₁, extracted, done⟩ := Run.of_bind_ok done
  obtain ⟨written, w₂, saved, done⟩ := Run.of_bind_ok done
  obtain ⟨_, w₃, said, done⟩ := Run.of_bind_ok done
  cases done
  have extracted := Run.of_mapError_ok extracted
  obtain ⟨rfl, root, v, v', drawn, sameBefore, inspected, sameAfter⟩ :=
    Extraction.drawn_of_ofFile_ok extracted
  obtain ⟨rfl, second⟩ := saves_writeExtraction named (Run.of_mapError_ok saved)
  obtain ⟨announced, unchanged⟩ := of_say_ok said
  have first := saves_inspect named inspected
  rw [sameBefore, ← sameAfter] at first
  rw [unchanged]
  exact ⟨rfl, root, e, rfl, congrArg Prod.fst extracted, drawn, announced, first.trans second⟩

/-- A document from which an extraction can be drawn is extracted, if the directories are there and
none of the files to be written is a directory. -/
theorem exists_extractOne_ok (named : '/' ∉ e.path.name) (drawn : Drawn config w.files root e)
    {shown : Text} (announced : Console.message (announcement directory e) = .ok shown)
    (there : ∀ dir ∈ directories config directory, w.files.leadsToDirectory dir = true)
    (free : ∀ write ∈ writes config directory root e, w.files.leadsToDirectory write.1 = false) :
    ∃ w', extractOne config (some directory) e.path w = (.ok (filesOf directory e.path), w') := by
  obtain ⟨inspectionsThere, directoryThere⟩ := List.forall_mem_append.mp there
  obtain ⟨treesFree, filesFree⟩ := List.forall_mem_append.mp free
  obtain ⟨payloadFree, pageFree⟩ := List.forall_mem_cons.mp filesFree
  have inspects (v : Workspace) (same : v.files = w.files) :
      ∃ v', inspect config root e.path v = (.ok (), v') := by
    refine exists_inspect_ok named (fun inspection member => ?_) fun inspection member => ?_
    · rw [same]
      exact inspectionsThere inspection (Option.mem_toList.mpr member)
    · rw [same]
      exact treesFree _ (List.mem_map_of_mem (Option.mem_toList.mpr member))
  obtain ⟨w₁, extracted⟩ := Extraction.exists_ofFile_ok drawn inspects
  obtain ⟨-, _, v, v', -, sameBefore, inspected, sameAfter⟩ :=
    Extraction.drawn_of_ofFile_ok extracted
  have first := saves_inspect named inspected
  rw [sameBefore, ← sameAfter] at first
  have within : w₁.files.Within w.files := first.least w.files (.refl _) inspectionsThere
  have leads := first.grows.leadsToDirectory (directoryThere directory List.mem_cons_self)
  obtain ⟨w₂, saved⟩ := exists_writeExtraction_ok named leads
    (within.leadsToDirectory_eq_false payloadFree)
    (within.leadsToDirectory_eq_false (pageFree _ List.mem_cons_self))
  obtain ⟨w₃, said⟩ := exists_say_ok (w := w₂) announced
  refine ⟨w₃, ?_⟩
  unfold extractOne
  rw [Run.bind_of_ok (Run.mapError_ok extracted)]
  dsimp only
  rw [Run.bind_of_ok (Run.mapError_ok saved)]
  exact Run.bind_of_ok said

theorem extract_singleton (config : Config) (directory : Option Path) (document : Path) :
    extract config [document] directory = extractOne config directory document := by
  rw [extract]
  simp [extract]

/-! ### One document after the other -/

/-- The files after a document has been extracted by itself. -/
def alone (config : Config) (directory document : Path) (w : Workspace) : FileStore :=
  (extract config [document] (some directory) w).2.files

/-- A document can be extracted by itself; this is what is drawn from it. -/
structure Able (config : Config) (directory : Path) (w : Workspace) (root : Node) (e : Extraction) :
    Prop where
  named : '/' ∉ e.path.name
  runs : (extract config [e.path] (some directory) w).1 = .ok (filesOf directory e.path)
  drawn : Drawn config w.files root e
  announced : ∃ shown, Console.message (announcement directory e) = .ok shown
  saves : Saves (directories config directory) (writes config directory root e) w.files
    (alone config directory e.path w)

theorem exists_able (named : '/' ∉ document.name)
    (succeeds : (extract config [document] (some directory) w).1.isOk = true) :
    ∃ root e, e.path = document ∧ (Extraction.ofFile config document w).1 = .ok e ∧
      Able config directory w root e := by
  cases ran : extract config [document] (some directory) w with
  | mk ended after =>
      rw [ran] at succeeds
      cases ended with
      | error e =>
          cases succeeds
      | ok files =>
          have done := ran
          rw [extract_singleton] at done
          obtain ⟨rfl, root, e, rfl, isOwn, drawn, announced, saves⟩ := of_extractOne_ok named done
          have left : alone config directory e.path w = after.files := by
            unfold alone
            rw [ran]
          exact ⟨root, e, rfl, isOwn, named, by rw [ran], drawn, announced, left ▸ saves⟩

section Several

variable {drafts : List (Node × Extraction)}

/-- A state that is reached when some of the documents have been extracted. -/
structure Reached (config : Config) (directory : Path) (w : Workspace)
    (drafts : List (Node × Extraction)) (v : Workspace) : Prop where
  grown : w.files.Within v.files
  least : ∀ x ∈ drafts, v.files.Within (alone config directory x.2.path w)
  kept : ∀ x ∈ drafts, v.files.read x.2.path = w.files.read x.2.path
  made : ∀ dir ∈ directories config directory, v.files.leadsToDirectory dir = true

variable (able : ∀ x ∈ drafts, Able config directory w x.1 x.2)
  (kept : ∀ x ∈ drafts, ∀ y ∈ drafts,
    (alone config directory x.2.path w).read y.2.path = w.files.read y.2.path)

include able kept

/-- Extracting a document that can be extracted by itself leads from such a state to another one. -/
theorem Reached.extractOne {v : Workspace} (reached : Reached config directory w drafts v)
    {x : Node × Extraction} (member : x ∈ drafts) :
    ∃ v', extractOne config (some directory) x.2.path v = (.ok (filesOf directory x.2.path), v') ∧
      Saves (directories config directory) (writes config directory x.1 x.2) v.files v'.files ∧
      Reached config directory w drafts v' := by
  obtain ⟨named, -, drawn, ⟨shown, announced⟩, savesAlone⟩ := able x member
  have drawnHere : Drawn config v.files x.1 x.2 := drawn.of_read_eq (reached.kept x member)
  obtain ⟨v', done⟩ := exists_extractOne_ok named drawnHere announced reached.made
    fun write written => (reached.least x member).leadsToDirectory_eq_false
      (savesAlone.leadsToDirectory_eq_false written)
  obtain ⟨-, root, e, samePath, -, drawn', -, saves⟩ := of_extractOne_ok named done
  obtain ⟨rfl, rfl⟩ := drawn'.unique drawnHere samePath
  have least : ∀ y ∈ drafts, v'.files.Within (alone config directory y.2.path w) :=
    fun y among => saves.least _ (reached.least y among) (able y among).saves.made
  refine ⟨v', done, saves, reached.grown.trans saves.grows, least, fun y among => ?_, saves.made⟩
  obtain ⟨bytes, legible, -⟩ := (able y among).drawn.legible
  -- Alone, `x` leaves the text of `y` as it is; so nothing that `x` writes goes there, also from here.
  have untouched := kept x member y among
  have here := reached.kept y among
  rw [legible] at untouched here ⊢
  exact saves.read_eq_ok_of_within savesAlone reached.grown (least x member) here legible untouched

theorem Reached.extract {rest : List (Node × Extraction)} (among : rest ⊆ drafts) {v : Workspace}
    (reached : Reached config directory w drafts v) :
    ∃ v', extract config (rest.map (·.2.path)) (some directory) v =
        (.ok (rest.flatMap fun x => filesOf directory x.2.path), v') ∧
      Saves (rest.flatMap fun _ => directories config directory)
        (rest.flatMap fun x => writes config directory x.1 x.2) v.files v'.files := by
  induction rest generalizing v with
  | nil =>
      exact ⟨v, rfl, .refl v.files⟩
  | cons x rest hypothesis =>
      obtain ⟨member, later⟩ := List.cons_subset.mp among
      obtain ⟨v₁, first, saves, reached⟩ := reached.extractOne able kept member
      obtain ⟨v₂, others, savesOthers⟩ := hypothesis later reached
      refine ⟨v₂, ?_, saves.trans savesOthers⟩
      rw [List.map_cons, Action.extract, Run.bind_of_ok first, Run.bind_of_ok others]
      rfl

/-- Documents that can be extracted each by itself, without writing over one another, can be extracted
one after the other. -/
theorem extract_of_able :
    ∃ after, Action.extract config (drafts.map (·.2.path)) (some directory) w =
        (.ok (drafts.flatMap fun x => filesOf directory x.2.path), after) ∧
      Saves (drafts.flatMap fun _ => directories config directory)
        (drafts.flatMap fun x => writes config directory x.1 x.2) w.files after.files := by
  rcases drafts with _ | ⟨x, rest⟩
  · exact ⟨w, rfl, .refl w.files⟩
  · have first := able x List.mem_cons_self
    -- The first document finds the workspace as it would alone, and makes the directories for the rest.
    let between := (Action.extract config [x.2.path] (some directory) w).2
    have ran : Action.extractOne config (some directory) x.2.path w =
        (.ok (filesOf directory x.2.path), between) := by
      rw [← extract_singleton]
      exact Prod.ext first.runs rfl
    have reached : Reached config directory w (x :: rest) between :=
      ⟨first.saves.grows, fun y among => first.saves.least _ (able y among).saves.grows
        (able y among).saves.made, kept x List.mem_cons_self, first.saves.made⟩
    obtain ⟨after, others, saves⟩ :=
      reached.extract able kept (List.subset_cons_self x rest)
    refine ⟨after, ?_, first.saves.trans saves⟩
    rw [List.map_cons, Action.extract, Run.bind_of_ok ran, Run.bind_of_ok others]
    rfl

end Several

/-! ### Which files hold what -/

/-- The files of an extraction hold its payload and its page. -/
def Holds (files : FileStore) (directory : Path) (e : Extraction) : Prop :=
  files.read (payloadFile directory e.path) = .ok (Utf8.encode (e.payload (.indented 2))) ∧
    files.read (pageFile directory e.path) = .ok (Utf8.encode e.page)

/-- Two extractions are written alike. -/
def SameFiles (a b : Extraction) : Prop :=
  a.payload (.indented 2) = b.payload (.indented 2) ∧ a.page = b.page

theorem sameFiles_of_holds {files : FileStore} {a b : Extraction} (holds : Holds files directory a)
    (holds' : Holds files directory b) (sameName : a.path.name = b.path.name) : SameFiles a b := by
  obtain ⟨payload, page⟩ := holds
  obtain ⟨payload', page'⟩ := holds'
  have samePayload : payloadFile directory a.path = payloadFile directory b.path := by
    unfold payloadFile
    rw [sameName]
  have samePage : pageFile directory a.path = pageFile directory b.path := by
    unfold pageFile
    rw [sameName]
  rw [samePayload, payload'] at payload
  rw [samePage, page'] at page
  exact ⟨(Utf8.encode_injective (Except.ok.inj payload)).symm,
    (Utf8.encode_injective (Except.ok.inj page)).symm⟩

theorem mem_writes {write : Path × Bytes} :
    write ∈ writes config directory root e ↔
      (∃ inspection ∈ config.debugDir,
        write = (treeFile inspection e.path, Utf8.encode (root.toJson.write (.indented 4)))) ∨
      write = (payloadFile directory e.path, Utf8.encode (e.payload (.indented 2))) ∨
      write = (pageFile directory e.path, Utf8.encode e.page) := by
  unfold writes
  simp [eq_comm]

theorem json_ne_html (base base' : Text) :
    base ++ Text.ofString ".json" ≠ base' ++ Text.ofString ".html" := by
  intro same
  have sameLength : (Text.ofString ".json").length = (Text.ofString ".html").length := by
    decide
  have endings : Text.ofString ".json" = Text.ofString ".html" :=
    List.append_inj_right' same sameLength
  exact absurd endings (by decide)

section Several

variable {drafts : List (Node × Extraction)} {after : Workspace}
  (able : ∀ x ∈ drafts, Able config directory w x.1 x.2)
  (saves : Saves (drafts.flatMap fun _ => directories config directory)
    (drafts.flatMap fun x => writes config directory x.1 x.2) w.files after.files)

include able saves

theorem holds_of_sameFiles
    (apart : ∀ inspection ∈ config.debugDir, ∀ x ∈ drafts, ∀ y ∈ drafts,
      (alone config directory x.2.path w).locate (treeFile inspection x.2.path) ≠
        (alone config directory x.2.path w).locate (payloadFile directory y.2.path))
    {x : Node × Extraction} (member : x ∈ drafts)
    (same : ∀ y ∈ drafts, y.2.path.name = x.2.path.name → SameFiles y.2 x.2) :
    Holds after.files directory x.2 := by
  have made : ∀ dir ∈ directories config directory, after.files.leadsToDirectory dir = true :=
    fun dir among => saves.made dir (List.mem_flatMap.mpr ⟨x, member, among⟩)
  have target := made directory (List.mem_append_right _ List.mem_cons_self)
  have within : ∀ y ∈ drafts, after.files.Within (alone config directory y.2.path w) := by
    intro y among
    refine saves.least _ (able y among).saves.grows fun dir member => ?_
    obtain ⟨_, -, member⟩ := List.mem_flatMap.mp member
    exact (able y among).saves.made dir member
  have named := (able x member).named
  constructor
  · refine saves.read_eq_ok (List.mem_flatMap.mpr ⟨x, member, mem_writes.mpr (.inr (.inl rfl))⟩)
      fun write written sameFile => ?_
    obtain ⟨y, among, written⟩ := List.mem_flatMap.mp written
    have namedOther := (able y among).named
    rcases mem_writes.mp written with ⟨inspection, wanted, rfl⟩ | rfl | rfl
    -- A tree has the ending of a payload, so its name alone does not keep it apart.
    · obtain ⟨place, led⟩ := saves.located _ (List.mem_flatMap.mpr ⟨y, among, written⟩)
      have ledPayload := led
      rw [sameFile] at ledPayload
      have led := (within y among).locate led
      rw [← (within y among).locate ledPayload] at led
      exact absurd led (apart inspection wanted y among x member)
    · have sameName := FileStore.name_eq_of_locate_child target target
        (payloadName_proper namedOther) (payloadName_proper named) sameFile
      exact congrArg Utf8.encode (same y among (List.append_cancel_right sameName)).1
    · have sameName := FileStore.name_eq_of_locate_child target target
        (pageName_proper namedOther) (payloadName_proper named) sameFile
      exact absurd sameName.symm (json_ne_html _ _)
  · refine saves.read_eq_ok (List.mem_flatMap.mpr ⟨x, member, mem_writes.mpr (.inr (.inr rfl))⟩)
      fun write written sameFile => ?_
    obtain ⟨y, among, written⟩ := List.mem_flatMap.mp written
    have namedOther := (able y among).named
    rcases mem_writes.mp written with ⟨inspection, wanted, rfl⟩ | rfl | rfl
    · have inspects := made inspection (List.mem_append_left _ (Option.mem_toList.mpr wanted))
      have sameName := FileStore.name_eq_of_locate_child inspects target
        (treeName_proper namedOther) (pageName_proper named) sameFile
      exact absurd sameName (json_ne_html _ _)
    · have sameName := FileStore.name_eq_of_locate_child target target
        (payloadName_proper namedOther) (pageName_proper named) sameFile
      exact absurd sameName (json_ne_html _ _)
    · have sameName := FileStore.name_eq_of_locate_child target target
        (pageName_proper namedOther) (pageName_proper named) sameFile
      exact congrArg Utf8.encode (same y among (List.append_cancel_right sameName)).2

end Several

/-- Documents can be extracted together into a directory: each of them by itself, without a document
being written over, and without a tree for inspection being written where a payload goes. -/
structure SideBySide (config : Config) (directory : Path) (documents : List Path) (w : Workspace) :
    Prop where
  spelled : ∀ d ∈ documents, ∃ t, d = Path.ofText t
  succeeds : ∀ d ∈ documents, (extract config [d] (some directory) w).1.isOk = true
  kept : ∀ d ∈ documents, ∀ other ∈ documents,
    (alone config directory d w).read other = w.files.read other
  apart : ∀ inspection ∈ config.debugDir, ∀ d ∈ documents, ∀ other ∈ documents,
    (alone config directory d w).locate (treeFile inspection d) ≠
      (alone config directory d w).locate (payloadFile directory other)

theorem SideBySide.exists_drafts {documents : List Path}
    (sideBySide : SideBySide config directory documents w) :
    ∃ drafts : List (Node × Extraction), drafts.map (·.2.path) = documents ∧
      ∀ x ∈ drafts, (Extraction.ofFile config x.2.path w).1 = .ok x.2 ∧
        Able config directory w x.1 x.2 := by
  obtain ⟨spelled, succeeds, -, -⟩ := sideBySide
  induction documents with
  | nil =>
      exact ⟨[], rfl, by simp⟩
  | cons d rest hypothesis =>
      obtain ⟨spelledFirst, spelledRest⟩ := List.forall_mem_cons.mp spelled
      obtain ⟨succeedsFirst, succeedsRest⟩ := List.forall_mem_cons.mp succeeds
      obtain ⟨drafts, paths, able⟩ := hypothesis spelledRest succeedsRest
      obtain ⟨t, rfl⟩ := spelledFirst
      obtain ⟨root, e, samePath, isOwn, ableFirst⟩ :=
        exists_able (Path.slash_not_mem_name t) succeedsFirst
      refine ⟨(root, e) :: drafts, by rw [List.map_cons, paths, samePath], ?_⟩
      exact List.forall_mem_cons.mpr ⟨⟨samePath ▸ isOwn, ableFirst⟩, able⟩

/-- Documents that can be extracted side by side are all extracted, and each has a payload and a page
to be written to the two files that are named for it. The files of every document hold what is its
own exactly when documents of the same name, wherever they are, have the same to write. -/
theorem extract_holds_iff {documents : List Path}
    (sideBySide : SideBySide config directory documents w) :
    ∃ (own : List Extraction) (after : Workspace), own.map (·.path) = documents ∧
      (∀ e ∈ own, (Extraction.ofFile config e.path w).1 = .ok e) ∧
      extract config documents (some directory) w =
        (.ok (documents.flatMap (filesOf directory)), after) ∧
      ((∀ e ∈ own, Holds after.files directory e) ↔
        ∀ a ∈ own, ∀ b ∈ own, a.path.name = b.path.name → SameFiles a b) := by
  obtain ⟨drafts, rfl, facts⟩ := sideBySide.exists_drafts
  have able : ∀ x ∈ drafts, Able config directory w x.1 x.2 := fun x member => (facts x member).2
  have kept : ∀ x ∈ drafts, ∀ y ∈ drafts,
      (alone config directory x.2.path w).read y.2.path = w.files.read y.2.path :=
    fun x member y among => sideBySide.kept _ (List.mem_map_of_mem member) _
      (List.mem_map_of_mem among)
  obtain ⟨after, ran, saves⟩ := extract_of_able able kept
  refine ⟨drafts.map Prod.snd, after, ?_, ?_, ?_, ?_, ?_⟩
  · rw [List.map_map]
    rfl
  · intro e member
    obtain ⟨x, among, rfl⟩ := List.mem_map.mp member
    exact (facts x among).1
  · rw [ran, List.flatMap_map]
  · intro holds a member b among sameName
    exact sameFiles_of_holds (holds a member) (holds b among) sameName
  · intro same e member
    obtain ⟨x, among, rfl⟩ := List.mem_map.mp member
    refine holds_of_sameFiles able saves (fun inspection wanted y inside z within => ?_) among
      fun y inside => same y.2 (List.mem_map_of_mem inside) x.2 member
    exact sideBySide.apart inspection wanted _ (List.mem_map_of_mem inside) _
      (List.mem_map_of_mem within)

/-- Two documents of the same name with the same text, a third one, and a directory for the trees. -/
theorem extract_holds_iff_twins :
    let config : Config :=
      ⟨['e', 'n'], [], [], false, some ⟨.relative, [['t']]⟩, ServiceSettings.standard, .standard⟩
    let directory : Path := ⟨.relative, [['o'], ['p']]⟩
    let documents : List Path :=
      [⟨.relative, [['a'], ['x']]⟩, ⟨.relative, [['b'], ['x']]⟩, ⟨.relative, [['y']]⟩]
    let title (t : String) : Bytes := Utf8.encode (Text.ofString ("---\ntitle: " ++ t ++ "\n---\n"))
    let w : Workspace :=
      { files := { files := [([['a'], ['x']], title "c"), ([['b'], ['x']], title "c"),
          ([['y']], title "d")] }, respond := fun _ => ⟨200, []⟩ }
    SideBySide config directory documents w ∧
    ∃ (own : List Extraction) (after : Workspace), own.map (·.path) = documents ∧
      (∀ e ∈ own, (Extraction.ofFile config e.path w).1 = .ok e) ∧
      extract config documents (some directory) w =
        (.ok (documents.flatMap (filesOf directory)), after) ∧
      ((∀ e ∈ own, Holds after.files directory e) ↔
        ∀ a ∈ own, ∀ b ∈ own, a.path.name = b.path.name → SameFiles a b) := by
  intro config directory documents title w
  have sideBySide : SideBySide config directory documents w := by
    constructor
    · intro d member
      refine ⟨d.toText, ?_⟩
      revert d
      decide +kernel
    · decide +kernel
    · decide +kernel
    · decide +kernel
  exact ⟨sideBySide, extract_holds_iff sideBySide⟩

/-- Not every document is kept. The second of two documents of the same name takes the files of the
first one, whose payload is in no file afterwards. -/
theorem not_forall_extract_holds :
    ¬ ∀ (config : Config) (directory : Path) (documents : List Path) (w : Workspace),
      documents.Nodup → (∀ d ∈ documents, ∃ t, d = Path.ofText t) →
      (∀ d ∈ documents, (Extraction.ofFile config d w).1.isOk = true) →
      ∀ written after, extract config documents (some directory) w = (.ok written, after) →
      ∀ d ∈ documents, ∀ e, (Extraction.ofFile config d w).1 = .ok e →
        ∃ file, after.files.read file = .ok (Utf8.encode (e.payload (.indented 2))) := by
  intro claim
  let config : Config := ⟨['e', 'n'], [], [], false, none, ServiceSettings.standard, .standard⟩
  let directory : Path := ⟨.relative, [['o']]⟩
  let first : Path := ⟨.relative, [['a'], ['x']]⟩
  let second : Path := ⟨.relative, [['b'], ['x']]⟩
  let title (t : String) : Bytes := Utf8.encode (Text.ofString ("---\ntitle: " ++ t ++ "\n---\n"))
  let w : Workspace :=
    { files := { files := [(first.names, title "c"), (second.names, title "d")] },
      respond := fun _ => ⟨200, []⟩ }
  have ends : (extract config [first, second] (some directory) w).1.isOk = true := by
    decide +kernel
  have lost : ∀ file ∈ (extract config [first, second] (some directory) w).2.files.files,
      some file.2 ≠ (Extraction.ofFile config first w).1.toOption.map fun e =>
        Utf8.encode (e.payload (.indented 2)) := by
    decide +kernel
  have spelled : ∀ d ∈ [first, second], d = Path.ofText d.toText := by
    decide +kernel
  have extracts : ∀ d ∈ [first, second], (Extraction.ofFile config d w).1.isOk = true := by
    decide +kernel
  cases own : (Extraction.ofFile config first w).1 with
  | error failure =>
      have isOk := extracts first List.mem_cons_self
      rw [own] at isOk
      cases isOk
  | ok e =>
      cases ran : extract config [first, second] (some directory) w with
      | mk ended after =>
          rw [ran] at ends lost
          cases ended with
          | error failure =>
              cases ends
          | ok written =>
              obtain ⟨file, found⟩ := claim config directory [first, second] w (by decide)
                (fun d member => ⟨_, spelled d member⟩) extracts written after ran first
                List.mem_cons_self e own
              obtain ⟨place, -, there⟩ := FileStore.read_eq_ok_iff.mp found
              rw [own] at lost
              exact lost _ (FileStore.mem_of_fileAt? there) rfl

end Action

end MdxLocalization
