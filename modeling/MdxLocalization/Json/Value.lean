import MdxLocalization.Number.Binary64
import MdxLocalization.Text.Basic

/-!
# JSON values

A JSON value keeps integers of any size apart from floating-point numbers, and the fields of an
object in the order in which their names first occurred; a repeated name replaces the value but
keeps the place.
-/

namespace MdxLocalization

/-- A JSON value. -/
inductive Json where
  | null
  | bool (b : Bool)
  | integer (n : Int)
  | real (x : Binary64)
  | text (t : Text)
  | array (items : List Json)
  | object (fields : List (Text × Json))
  deriving Repr, Inhabited

namespace Json

def ofString (s : String) : Json := .text (Text.ofString s)

/-- The value of a natural number. -/
def ofNat (n : Nat) : Json := .integer n

/-- The object with the given fields, their names as strings. -/
def record (fields : List (String × Json)) : Json :=
  .object (fields.map fun (name, value) => (Text.ofString name, value))

/-- The value of a present option, `null` for an absent one. -/
def ofOption {α : Type} (encode : α → Json) : Option α → Json
  | none => .null
  | some a => encode a

/-- Sets a field: a known name keeps its place, a new one goes to the end. -/
def setField (name : Text) (value : Json) : List (Text × Json) → List (Text × Json)
  | [] => [(name, value)]
  | (key, old) :: rest =>
    if key = name then (key, value) :: rest else (key, old) :: setField name value rest

def fieldOf? (fields : List (Text × Json)) (name : String) : Option Json :=
  fields.lookup (Text.ofString name)

/-- The value of a field of an object; other values have no fields. -/
def field? (j : Json) (name : String) : Option Json :=
  match j with
  | .object fields => fieldOf? fields name
  | _ => none

/-- Whether a value counts as absent: nothing, false, a zero, or an empty text, array or object. -/
def isEmpty : Json → Bool
  | .null => true
  | .bool b => !b
  | .integer n => n == 0
  | .real x => x.isZero
  | .text t => t.isEmpty
  | .array items => items.isEmpty
  | .object fields => fields.isEmpty

end Json

end MdxLocalization
