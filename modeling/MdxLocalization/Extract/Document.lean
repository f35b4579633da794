import MdxLocalization.Extract.Body
import MdxLocalization.Extract.Title
import MdxLocalization.Extract.ModuleAddress

/-!
# Collecting changes

The changes of a document are those of its front matter, its module references and its content, in
this order; within each they follow the document.
-/

namespace MdxLocalization.Extract

/-- What collecting the changes of a document yields: the changes or the failure, with the events up
to there. -/
structure Collection where
  result : Except ExtractError (List Change)
  events : List LogEvent

/-- Collects the changes of a document. -/
def collect (s : Settings) (root : Node) : Collection :=
  match frontMatterTitle root with
  | .error e => ⟨.error (.missingPosition e), []⟩
  | .ok title =>
    match references s.locale s.placeholder root with
    | .error e => ⟨.error e, title.events⟩
    | .ok (references, referenceEvents) =>
      let content := surveyDocument s root
      let events := title.events ++ referenceEvents ++ content.events
      match content.result with
      | .error e => ⟨.error e, events⟩
      | .ok changes =>
        let all := title.changes ++ references ++ changes
        ⟨.ok all, events ++
          [⟨.info, .collector, Text.ofString "变更收集完成", [("total", .ofNat all.length)]⟩]⟩

end MdxLocalization.Extract
