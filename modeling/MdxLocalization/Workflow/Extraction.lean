import MdxLocalization.Document.Parsing
import MdxLocalization.Extract.Document
import MdxLocalization.Page.Context
import MdxLocalization.Tree.Json
import MdxLocalization.Workflow.Failure

/-!
# Extracting a document

The extraction of a document holds its changes and its context page. The page is titled with the
first title among the changes, or with the name of the file. On the way the tree of the document is
written to the directory for inspection, if the settings name one; this happens before the changes
are collected, so that the tree of a bad document can be looked at.
-/

namespace MdxLocalization

/-- What is extracted from a document. -/
structure Extraction where
  path : Path
  source : Text
  changes : List Change
  page : Text

namespace Extraction

/-- The payload for the localization service. -/
def payload (e : Extraction) (layout : Json.Layout) : Text := Payload.write layout e.changes

def treeFile (directory document : Path) : Path :=
  directory.child (Text.ofString "ast-" ++ document.name ++ Text.ofString ".json")

def writeTree (root : Node) (document directory : Path) : Run FileError Unit := do
  Run.makeDirectories directory
  let file := treeFile directory document
  Run.writeFile file (root.toJson.write (.indented 4))
  Run.log ⟨.debug, .pipeline, Text.ofString "语法树已写入调试目录", [("path", .text file.toText)]⟩

/-- The title of a document. -/
def titleOf (path : Path) (changes : List Change) : Text :=
  match changes.find? fun c => c.kind = .title with
  | some c => c.text
  | none => path.stem

/-- Extracts a document. -/
def ofFile (config : Config) (path : Path) : Run Failure Extraction := do
  Run.log ⟨.info, .pipeline,
    Text.ofString "--- " ++ path.toText ++ Text.ofString " ---", []⟩
  let source ← Run.readText path path
  let root ← (Run.ofTraced (Document.parse source)).mapError .parse
  match config.debugDir with
  | some directory =>
    (writeTree root path directory).mapError fun e => .document path (.file e)
  | none => pure ()
  let found := Extract.collect ⟨source, config.defaultLocale, config.placeholderName⟩ root
  Run.logAll found.events
  let changes ← Run.ofExcept (found.result.mapError (Failure.ofExtractError path))
  Run.ofExcept ((Patch.validate changes source).mapError fun e => .document path (.patch e))
  let lang ← Run.ofExcept (config.languageCode.mapError fun e => .url (.tag e))
  let page ← (Run.ofTraced (Page.context source (titleOf path changes) lang)).mapError .parse
  return { path, source, changes, page }

end Extraction

end MdxLocalization
