import MdxLocalization.Config.Settings
import MdxLocalization.Workflow.Failure

/-!
# Putting translated texts into a document

The changes of a translated file replace their spans in the document, and the result is written
over the document or to another file. Nothing is written unless all of it succeeds. Line breaks in
the translated file are brought to one form first; those of the document are left alone.
-/

namespace MdxLocalization.Update

/-- What is to be updated. -/
structure Request where
  source : Path
  translated : Path
  /-- Where the result goes instead of the document. -/
  output : Option Path
  /-- Whether the texts are made to stand out; the settings decide where this is absent. -/
  emphasize : Option Bool

/-- Updates a document and gives the path of the file written. -/
def run (config : Config) (r : Request) : Run Failure Path := do
  let target := r.output.getD r.source
  let source ← Run.readText r.source r.source
  let translated ← Run.readText r.source r.translated
  let changes ← Run.ofExcept ((Payload.read (Text.normalizeBreaks translated)).mapError
    (Failure.ofPayloadError r.source))
  let transform := Patch.textTransform (r.emphasize.getD config.emphasize)
  let result ← Run.ofExcept ((Patch.apply transform source changes).mapError
    fun e => .document r.source (.patch e))
  (Run.makeDirectories target.parent).mapError .file
  (Run.writeFile target result).mapError .file
  Run.log ⟨.info, .pipeline, Text.ofString "译文已回填",
    [("source", .text r.source.toText), ("output", .text target.toText),
      ("count", .ofNat changes.length)]⟩
  return target

end MdxLocalization.Update
