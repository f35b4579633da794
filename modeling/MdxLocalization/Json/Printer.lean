import MdxLocalization.Json.Value
import MdxLocalization.Number.Shortest
import MdxLocalization.Text.Quoted

/-!
# Writing JSON

`Json.write` prints a value in one of three layouts: compact, spaced (a blank after each comma and
colon), or indented over several lines. Characters outside ASCII stay as they are; only the quote,
the backslash and the control characters are escaped.

`Json.display` is the form in which values appear in messages and log tables: names for the
constants, and texts in quotes as `Text.quoted` writes them.
-/

namespace MdxLocalization.Json

/-- How the parts of a value are separated. -/
inductive Layout where
  | compact
  | spaced
  | indented (width : Nat)
  deriving DecidableEq, Repr

/-- The escaped form of one character inside a JSON string. -/
def escapeChar (c : Char) : Text :=
  if c = '"' then ['\\', '"']
  else if c = '\\' then ['\\', '\\']
  else if c = '\n' then ['\\', 'n']
  else if c = '\r' then ['\\', 'r']
  else if c = '\t' then ['\\', 't']
  else if c = '\x08' then ['\\', 'b']
  else if c = '\x0c' then ['\\', 'f']
  else if c.toNat < 32 then '\\' :: 'u' :: Text.hexPadded 4 c.toNat
  else [c]

/-- A text as a JSON string with its quotes. -/
def writeText (t : Text) : Text := '"' :: t.flatMap escapeChar ++ ['"']

namespace Layout

/-- A line break followed by the indentation of a nesting depth. -/
def lineBreak (width depth : Nat) : Text := '\n' :: List.replicate (width * depth) ' '

/-- What follows the opening bracket of a container whose items stand at `depth`. -/
def opening (layout : Layout) (depth : Nat) : Text :=
  match layout with
  | .indented width => lineBreak width depth
  | _ => []

/-- What precedes the closing bracket of a container that itself stands at `depth`. -/
def closing (layout : Layout) (depth : Nat) : Text := layout.opening depth

/-- What stands between two items at `depth`. -/
def separator (layout : Layout) (depth : Nat) : Text :=
  match layout with
  | .compact => [',']
  | .spaced => [',', ' ']
  | .indented width => ',' :: lineBreak width depth

/-- What stands between the name and the value of a field. -/
def colon : Layout → Text
  | .compact => [':']
  | _ => [':', ' ']

end Layout

mutual

/-- The text of a value that stands at a nesting depth. -/
def writeAt (layout : Layout) (depth : Nat) : Json → Text
  | .null => ['n', 'u', 'l', 'l']
  | .bool true => ['t', 'r', 'u', 'e']
  | .bool false => ['f', 'a', 'l', 's', 'e']
  | .integer n => Text.ofInt n
  | .real x => x.toText ['N', 'a', 'N'] ['I', 'n', 'f', 'i', 'n', 'i', 't', 'y']
  | .text t => writeText t
  | .array [] => ['[', ']']
  | .array (item :: items) =>
    '[' :: layout.opening (depth + 1) ++ writeAt layout (depth + 1) item ++
      writeItems layout (depth + 1) items ++ layout.closing depth ++ [']']
  | .object [] => ['\x7b', '\x7d']
  | .object ((name, value) :: fields) =>
    '\x7b' :: layout.opening (depth + 1) ++ writeText name ++ layout.colon ++
      writeAt layout (depth + 1) value ++ writeFields layout (depth + 1) fields ++
      layout.closing depth ++ ['\x7d']

/-- The texts of further items, each after a separator. -/
def writeItems (layout : Layout) (depth : Nat) : List Json → Text
  | [] => []
  | item :: items =>
    layout.separator depth ++ writeAt layout depth item ++ writeItems layout depth items

/-- The texts of further fields, each after a separator. -/
def writeFields (layout : Layout) (depth : Nat) : List (Text × Json) → Text
  | [] => []
  | (name, value) :: fields =>
    layout.separator depth ++ writeText name ++ layout.colon ++ writeAt layout depth value ++
      writeFields layout depth fields

end

/-- The text of a value. -/
def write (layout : Layout) (j : Json) : Text := writeAt layout 0 j

mutual

/-- The form of a value in messages and log tables. -/
def display : Json → Text
  | .null => ['N', 'o', 'n', 'e']
  | .bool true => ['T', 'r', 'u', 'e']
  | .bool false => ['F', 'a', 'l', 's', 'e']
  | .integer n => Text.ofInt n
  | .real x => x.toText ['n', 'a', 'n'] ['i', 'n', 'f']
  | .text t => Text.quoted t
  | .array items => '[' :: displayItems items ++ [']']
  | .object fields => '\x7b' :: displayFields fields ++ ['\x7d']

/-- The displayed items with commas between them. -/
def displayItems : List Json → Text
  | [] => []
  | [item] => display item
  | item :: items => display item ++ ',' :: ' ' :: displayItems items

/-- The displayed fields with commas between them. -/
def displayFields : List (Text × Json) → Text
  | [] => []
  | [(name, value)] => Text.quoted name ++ ':' :: ' ' :: display value
  | (name, value) :: fields =>
    Text.quoted name ++ ':' :: ' ' :: display value ++ ',' :: ' ' :: displayFields fields

end

/-- The form of a value in running text, where a text stands for itself. -/
def plainText : Json → Text
  | .text t => t
  | j => j.display

end MdxLocalization.Json
