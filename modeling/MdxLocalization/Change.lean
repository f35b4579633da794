import MdxLocalization.Json.Printer
import MdxLocalization.Number.IntegerText
import MdxLocalization.Span

/-!
# Changes

A change is one unit of localization: a kind, a text, the span of the document that the text
replaces, and notes for the translator. Changes travel as flat JSON objects; reading one back is
lenient about the form of its offsets, which may be integers, truth values, floating-point numbers
or integer texts, and about absent kinds and notes.
-/

namespace MdxLocalization

/-- What a change translates. -/
inductive ChangeKind where
  | title
  | reference
  | directiveLabel
  | content
  deriving DecidableEq, Repr, Inhabited

namespace ChangeKind

def name : ChangeKind → String
  | .title => "title"
  | .reference => "import"
  | .directiveLabel => "containerDirectiveLabel"
  | .content => "content"

def ofName? (t : Text) : Option ChangeKind :=
  [title, reference, directiveLabel, content].find? fun kind => Text.ofString kind.name = t

end ChangeKind

/-- A translatable unit of a document. -/
structure Change where
  kind : ChangeKind
  text : Text
  span : Span
  notes : Text
  deriving DecidableEq, Repr, Inhabited

/-- Why a JSON value is no change. -/
inductive ChangeError where
  /-- The value is no object, so that no field can be looked up. -/
  | notAnObject
  | missingField (name : String)
  | unknownKind (value : Json)
  | integerText (error : IntegerTextError)
  | notANumber
  | infinite
  /-- An offset is neither a number nor a text. -/
  | wrongOffsetType
  /-- The named fields hold no text. -/
  | notText (fields : List String)
  deriving Repr, Inhabited

namespace Change

/-- The change with another text in the same place. -/
def withText (c : Change) (text : Text) : Change := { c with text }

/-- The flat object of a change. -/
def toJson (c : Change) : Json :=
  .record [("type", .ofString c.kind.name), ("text", .text c.text),
    ("start", .integer c.span.start), ("end", .integer c.span.stop), ("notes", .text c.notes)]

/-- Reads an offset. Floating-point numbers lose their fraction. -/
def readOffset : Json → Except ChangeError Int
  | .integer n => .ok n
  | .bool b => .ok (if b then 1 else 0)
  | .text t => (IntegerText.read t).mapError .integerText
  | .real x =>
    match x with
    | .nan => .error .notANumber
    | .infinite _ => .error .infinite
    | .finite .. => .ok ((x.truncate?).getD 0)
  | _ => .error .wrongOffsetType

def requireField (fields : List (Text × Json)) (name : String) : Except ChangeError Json :=
  match Json.fieldOf? fields name with
  | some value => .ok value
  | none => .error (.missingField name)

/-- Reads the kind of a change; an empty value stands for content. -/
def readKind (fields : List (Text × Json)) : Except ChangeError ChangeKind :=
  match Json.fieldOf? fields "type" with
  | none => .ok .content
  | some value =>
    if value.isEmpty then .ok .content
    else
      match value with
      | .text t =>
        match ChangeKind.ofName? t with
        | some kind => .ok kind
        | none => .error (.unknownKind value)
      | _ => .error (.unknownKind value)

/-- The notes field; an empty value stands for the empty text. -/
def notesField (fields : List (Text × Json)) : Json :=
  match Json.fieldOf? fields "notes" with
  | none => .text []
  | some value => if value.isEmpty then .text [] else value

/-- Reads a change. The kind is judged first, then the offsets in order, and last whether text and
notes are texts. -/
def ofJson : Json → Except ChangeError Change
  | .object fields => do
    let kind ← readKind fields
    let text ← requireField fields "text"
    let start ← requireField fields "start" >>= readOffset
    let stop ← requireField fields "end" >>= readOffset
    match text, notesField fields with
    | .text text, .text notes => return { kind, text, span := ⟨start, stop⟩, notes }
    | .text _, _ => throw (.notText ["notes"])
    | _, .text _ => throw (.notText ["text"])
    | _, _ => throw (.notText ["text", "notes"])
  | _ => .error .notAnObject

end Change

namespace ChangeError

/-- The message of an error, where there is one. -/
def message? : ChangeError → Option Text
  | .missingField name => some (Text.quoted (Text.ofString name))
  | .unknownKind value => some (value.display ++ Text.ofString " is not a valid ChangeKind")
  | .integerText error => some (IntegerText.message error)
  | .notANumber => some (Text.ofString "cannot convert float NaN to integer")
  | .infinite => some (Text.ofString "cannot convert float infinity to integer")
  | .notAnObject | .wrongOffsetType | .notText _ => none

end ChangeError

end MdxLocalization
