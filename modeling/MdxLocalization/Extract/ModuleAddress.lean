import MdxLocalization.Change
import MdxLocalization.Extract.Error
import MdxLocalization.Log.Event

/-!
# Module references

The module literals of the import statements at top level are localised like addresses. A literal
that this changes becomes a change with the literal's own span.
-/

namespace MdxLocalization.Extract

/-- The import declarations of a document in order. -/
def declarations (root : Node) : List Node :=
  (root.children.filter (·.kind = .esm)).flatMap fun block =>
    block.children.filter (·.kind = .importDeclaration)

/-- The change of one declaration, if localising alters its literal. -/
def reference? (locale placeholder : Text) (declaration : Node) :
    Except ExtractError (Option Change) := do
  let literal := declaration.info.value.getD []
  let localized ← (Url.localize locale placeholder literal).mapError .url
  if localized = literal then return none
  let span ← declaration.info.spanOrFail.mapError .missingPosition
  return some { kind := .reference, text := localized, span, notes := [] }

def alteredEvent (literal localized : Text) : LogEvent :=
  ⟨.debug, .references, Text.ofString "改写 import 地址",
    [("original", .text literal), ("localized", .text localized)]⟩

/-- The changes of all declarations, with the events that report them. -/
def referencesOf (locale placeholder : Text) :
    List Node → Except ExtractError (List Change × List LogEvent)
  | [] => .ok ([], [])
  | declaration :: rest => do
    let change ← reference? locale placeholder declaration
    let (changes, events) ← referencesOf locale placeholder rest
    match change with
    | none => return (changes, events)
    | some change =>
      return (change :: changes,
        alteredEvent (declaration.info.value.getD []) change.text :: events)

def references (locale placeholder : Text) (root : Node) :
    Except ExtractError (List Change × List LogEvent) := do
  let (changes, events) ← referencesOf locale placeholder (declarations root)
  return (changes, events ++
    [⟨.info, .references, Text.ofString "import 解析完成", [("count", .ofNat changes.length)]⟩])

end MdxLocalization.Extract
