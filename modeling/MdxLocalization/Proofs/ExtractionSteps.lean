import MdxLocalization.Proofs.LogIndependence
import MdxLocalization.Proofs.RunEffects
import MdxLocalization.Workflow.Extraction

/-!
# What an extraction is drawn from

An extraction depends on the settings and on the contents of its document, and on nothing else in the
workspace. `Drawn` says so step by step. The only step that can fail besides is the one that writes
the tree for inspection, which has no bearing on what is extracted.
-/

namespace MdxLocalization

namespace Run

variable {ε α : Type} {w w' : Workspace} {x : Traced ε α} {a : α}

theorem of_ofTraced_ok (steady : x.Steady) (done : ofTraced x w = (.ok a, w')) :
    x.outcome.1 = .ok a ∧ w'.files = w.files := by
  have result : (x w.events).1 = .ok a := congrArg Prod.fst done
  have after : { w with events := (x w.events).2 } = w' := congrArg Prod.snd done
  exact ⟨(steady [] w.events).trans result, after ▸ rfl⟩

theorem exists_ofTraced_ok (steady : x.Steady) (ended : x.outcome.1 = .ok a) (w : Workspace) :
    ∃ w', ofTraced x w = (.ok a, w') ∧ w'.files = w.files := by
  have result : (x w.events).1 = .ok a := (steady w.events []).trans ended
  exact ⟨{ w with events := (x w.events).2 }, Prod.ext result rfl, rfl⟩

end Run

namespace Extraction

/-- Writes the tree of a document where the settings want it. -/
def inspect (config : Config) (root : Node) (document : Path) : Run Failure Unit :=
  match config.debugDir with
  | some directory =>
    (writeTree root document directory).mapError fun e => .document document (.file e)
  | none => pure ()

/-- Draws the extraction of a document from its text and tree. -/
def draw (config : Config) (path : Path) (source : Text) (root : Node) :
    Run Failure Extraction := do
  let found := Extract.collect ⟨source, config.defaultLocale, config.placeholderName⟩ root
  Run.logAll found.events
  let changes ← Run.ofExcept (found.result.mapError (Failure.ofExtractError path))
  Run.ofExcept ((Patch.validate changes source).mapError fun e => .document path (.patch e))
  let lang ← Run.ofExcept (config.languageCode.mapError fun e => .url (.tag e))
  let page ← (Run.ofTraced (Page.context source (titleOf path changes) lang)).mapError .parse
  return { path, source, changes, page }

theorem ofFile_eq (config : Config) (path : Path) :
    ofFile config path = (do
      Run.log ⟨.info, .pipeline, Text.ofString "--- " ++ path.toText ++ Text.ofString " ---", []⟩
      let source ← Run.readText path path
      let root ← (Run.ofTraced (Document.parse source)).mapError .parse
      inspect config root path
      draw config path source root) := by
  unfold ofFile inspect draw
  cases config.debugDir <;> rfl

/-- The extraction of a document as the settings and the store have it, and the tree on the way. -/
structure Drawn (config : Config) (s : FileStore) (root : Node) (e : Extraction) : Prop where
  legible : ∃ bytes, s.read e.path = .ok bytes ∧ Utf8.decode bytes = .ok e.source
  parsed : (Document.parse e.source).outcome.1 = .ok root
  collected : (Extract.collect ⟨e.source, config.defaultLocale, config.placeholderName⟩ root).result =
    .ok e.changes
  valid : Patch.validate e.changes e.source = .ok ()
  shown : ∃ lang, config.languageCode = .ok lang ∧
    (Page.context e.source (titleOf e.path e.changes) lang).outcome.1 = .ok e.page

variable {config : Config} {path : Path} {w w' : Workspace} {root : Node} {e : Extraction}

/-- An extraction that succeeds is drawn from its document, and the only step of it that touches files
is the one that writes the tree. -/
theorem drawn_of_ofFile_ok (extracted : ofFile config path w = (.ok e, w')) :
    e.path = path ∧ ∃ root v v', Drawn config w.files root e ∧ v.files = w.files ∧
      inspect config root path v = (.ok (), v') ∧ w'.files = v'.files := by
  rw [ofFile_eq] at extracted
  obtain ⟨_, logged, log, extracted⟩ := Run.of_bind_ok extracted
  obtain ⟨source, w₁, text, extracted⟩ := Run.of_bind_ok extracted
  obtain ⟨root, w₂, parsed, extracted⟩ := Run.of_bind_ok extracted
  obtain ⟨_, w₃, inspected, extracted⟩ := Run.of_bind_ok extracted
  unfold draw at extracted
  obtain ⟨_, w₄, events, extracted⟩ := Run.of_bind_ok extracted
  obtain ⟨changes, w₅, collected, extracted⟩ := Run.of_bind_ok extracted
  obtain ⟨_, w₆, checked, extracted⟩ := Run.of_bind_ok extracted
  obtain ⟨lang, w₇, tag, extracted⟩ := Run.of_bind_ok extracted
  obtain ⟨page, w₈, context, extracted⟩ := Run.of_bind_ok extracted
  cases extracted
  cases events
  cases log
  obtain ⟨bytes, found, decoded⟩ := Run.of_readText_ok text
  have unread := Run.Keeps.of_eq (Run.keeps_readText _ _ : Run.Keeps Workspace.files _) text
  obtain ⟨isRoot, sameParsed⟩ := Run.of_ofTraced_ok (Document.parse_steady source)
    (Run.of_mapError_ok parsed)
  obtain ⟨given, sameCollected⟩ := Run.of_ofExcept_mapError_ok collected
  obtain ⟨passed, sameChecked⟩ := Run.of_ofExcept_mapError_ok checked
  obtain ⟨named, sameTag⟩ := Run.of_ofExcept_mapError_ok tag
  obtain ⟨isPage, samePage⟩ := Run.of_ofTraced_ok (Page.context_steady _ _ _)
    (Run.of_mapError_ok context)
  refine ⟨rfl, root, w₂, w₃, ?_, sameParsed.trans unread, inspected, ?_⟩
  · exact ⟨⟨bytes, found, decoded⟩, isRoot, given, passed, lang, named, isPage⟩
  · rw [samePage, sameTag, sameChecked, sameCollected]

/-- What can be drawn from a document is extracted from it, if its tree can be written. -/
theorem exists_ofFile_ok (drawn : Drawn config w.files root e)
    (inspects : ∀ v : Workspace, v.files = w.files →
      ∃ v', inspect config root e.path v = (.ok (), v')) :
    ∃ w', ofFile config e.path w = (.ok e, w') := by
  obtain ⟨bytes, found, decoded⟩ := drawn.legible
  obtain ⟨lang, named, shown⟩ := drawn.shown
  let logged : Workspace := { w with events := w.events ++
    [⟨.info, .pipeline, Text.ofString "--- " ++ e.path.toText ++ Text.ofString " ---", []⟩] }
  have log : (Run.log ⟨.info, .pipeline,
      Text.ofString "--- " ++ e.path.toText ++ Text.ofString " ---", []⟩ : Run Failure Unit) w =
      (.ok (), logged) := rfl
  have text : Run.readText e.path e.path logged = (.ok e.source, logged) :=
    Run.readText_ok found decoded
  obtain ⟨w₁, parsed, same⟩ :=
    Run.exists_ofTraced_ok (Document.parse_steady e.source) drawn.parsed logged
  obtain ⟨w₂, inspected⟩ := inspects w₁ same
  let found := Extract.collect ⟨e.source, config.defaultLocale, config.placeholderName⟩ root
  let surveyed : Workspace := { w₂ with events := w₂.events ++ found.events }
  have events : (Run.logAll found.events : Run Failure Unit) w₂ = (.ok (), surveyed) := rfl
  obtain ⟨w₃, page, -⟩ := Run.exists_ofTraced_ok (Page.context_steady _ _ _) shown surveyed
  refine ⟨w₃, ?_⟩
  rw [ofFile_eq, Run.bind_of_ok log, Run.bind_of_ok text,
    Run.bind_of_ok (Run.mapError_ok parsed), Run.bind_of_ok inspected]
  unfold draw
  rw [Run.bind_of_ok events, Run.bind_of_ok (Run.ofExcept_mapError_ok drawn.collected),
    Run.bind_of_ok (Run.ofExcept_mapError_ok drawn.valid),
    Run.bind_of_ok (Run.ofExcept_mapError_ok named), Run.bind_of_ok (Run.mapError_ok page)]
  rfl

variable {s : FileStore} {root' : Node} {e' : Extraction}

/-- What is drawn from a document is determined. -/
theorem Drawn.unique (drawn : Drawn config s root e) (drawn' : Drawn config s root' e')
    (samePath : e.path = e'.path) : root = root' ∧ e = e' := by
  obtain ⟨bytes, found, decoded⟩ := drawn.legible
  obtain ⟨bytes', found', decoded'⟩ := drawn'.legible
  obtain ⟨lang, named, shown⟩ := drawn.shown
  obtain ⟨lang', named', shown'⟩ := drawn'.shown
  obtain ⟨path, source, changes, page⟩ := e
  obtain ⟨path', source', changes', page'⟩ := e'
  cases samePath
  rw [found] at found'
  cases found'
  rw [decoded] at decoded'
  cases decoded'
  have parsed := drawn.parsed
  rw [drawn'.parsed] at parsed
  cases parsed
  have collected := drawn.collected
  rw [drawn'.collected] at collected
  cases collected
  rw [named] at named'
  cases named'
  rw [shown] at shown'
  cases shown'
  exact ⟨rfl, rfl⟩

/-- Only the contents of the document matter. -/
theorem Drawn.of_read_eq {s' : FileStore} (drawn : Drawn config s root e)
    (same : s'.read e.path = s.read e.path) : Drawn config s' root e :=
  { drawn with legible := same ▸ drawn.legible }

end Extraction

end MdxLocalization
