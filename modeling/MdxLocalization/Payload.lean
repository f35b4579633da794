import MdxLocalization.Change
import MdxLocalization.Json.Reader

/-!
# Payloads

A payload is the JSON file that goes to the localization service: directives that tell the service
where each text, its key and its notes are found, and the list of changes. The file that comes back
is either such an object or the bare list.
-/

namespace MdxLocalization

/-- Why a translated file cannot be read. -/
inductive PayloadError where
  | json (error : JsonError)
  | missingStrings
  /-- The value in the place of the list cannot be gone through. -/
  | notAList
  | change (error : ChangeError)
  deriving Repr

namespace PayloadError

/-- The message of an error, where there is one. -/
def message? : PayloadError → Option Text
  | .json error => some error.message
  | .missingStrings => some (Text.quoted (Text.ofString "strings"))
  | .notAList => none
  | .change error => error.message?

/-- Whether the error is a malformed file that callers are told about. An item that is no object
and an infinite offset are not caught. -/
def isMalformedFile : PayloadError → Bool
  | .change .notAnObject => false
  | .change .infinite => false
  | _ => true

end PayloadError

namespace Payload

/-- Where the service finds text, key and notes of each string. -/
def directives : Json :=
  .record [
    ("translate_paths", .array [
      .record [
        ("path", .ofString "/strings/text"),
        ("key", .ofString "/strings/start"),
        ("instruction", .ofString "/strings/notes"),
        ("key_generation_strategy", .ofString "strict")]]),
    ("variants_enabled", .ofString "false")]

def toJson (changes : List Change) : Json :=
  .record [("smartling", directives), ("strings", .array (changes.map Change.toJson))]

def write (layout : Json.Layout) (changes : List Change) : Text := (toJson changes).write layout

/-- The items of the list in a translated file. Going through a text or an object yields texts,
which are no changes. -/
def items : Json → Except PayloadError (List Json)
  | .array items => .ok items
  | .text t => .ok (t.map fun c => .text [c])
  | .object fields => .ok (fields.map fun field => .text field.1)
  | _ => .error .notAList

/-- Reads the changes of a parsed translated file. -/
def ofJson (j : Json) : Except PayloadError (List Change) := do
  let strings ←
    match j with
    | .object fields =>
      match Json.fieldOf? fields "strings" with
      | some value => pure value
      | none => throw .missingStrings
    | _ => pure j
  (← items strings).mapM fun item => (Change.ofJson item).mapError .change

/-- Reads the changes of a translated file. -/
def read (t : Text) : Except PayloadError (List Change) := do
  ofJson (← (Json.read t).mapError .json)

end Payload

end MdxLocalization
