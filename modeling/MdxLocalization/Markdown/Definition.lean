import MdxLocalization.Markdown.Address
import MdxLocalization.Markdown.Destination
import MdxLocalization.Markdown.Interruption
import MdxLocalization.Text.Upper

/-!
# Link reference definitions

A definition is a label in brackets, a colon, a destination and perhaps a title. It may run over
several lines; a further line is taken in when the text so far asks for one and the line could
continue a paragraph. A title that turns out not to end its line is given up, and the definition
ends with its destination.
-/

namespace MdxLocalization.Markdown

/-- The form of a label in which labels are compared: white space counts as one space, and case is
ignored. -/
def labelKey (label : Text) : Text := Text.caseKey (Text.join [' '] (Text.words label))

/-- The text of a definition as far as it has been read: `rest` is what has not been used, and
`line` the line after it. -/
structure DefinitionText where
  rest : Text
  line : Nat

namespace DefinitionText

/-- The next line of a definition, if it may belong to it. -/
def nextLine? (s : Scope) (line : Nat) : Except PastEnd (Option Text) := do
  if s.stop ≤ line || s.isEmpty line then return none
  let l := s.line line
  let continues := s.isCode line || decide (l.indent < 0)
  if !continues then
    if ← s.endsDefinition line s.stop then return none
  return some l.contentWithBreak

/-- Takes in the next line, if it may belong to the definition. -/
def grow? (s : Scope) (t : DefinitionText) : Except PastEnd (Option DefinitionText) := do
  return (← nextLine? s t.line).map fun more => ⟨t.rest ++ more, t.line + 1⟩

/-- Takes in the next line if it may belong to the definition, and otherwise leaves the text. -/
def grow (s : Scope) (t : DefinitionText) : Except PastEnd DefinitionText := do
  return (← grow? s t).getD t

/-- Reads the label up to its closing bracket. The text starts behind the opening bracket; `label`
holds the characters so far in reverse. The budget bounds the number of steps. -/
def label? (s : Scope) (label : Text) :
    Nat → DefinitionText → Except PastEnd (Option (Text × DefinitionText))
  | 0, _ => .ok none
  | budget + 1, t =>
    match t.rest with
    | [] => .ok none
    | '[' :: _ => .ok none
    | ']' :: rest => .ok (some (label.reverse, { t with rest }))
    | '\\' :: '\n' :: rest => do
      let t ← grow s { t with rest }
      label? s ('\n' :: '\\' :: label) budget t
    | '\\' :: c :: rest => label? s (c :: '\\' :: label) budget { t with rest }
    | '\n' :: rest => do
      let t ← grow s { t with rest }
      label? s ('\n' :: label) budget t
    | c :: rest => label? s (c :: label) budget { t with rest }

/-- Skips spaces and line breaks. The budget bounds the number of steps. -/
def skipSpace (s : Scope) : Nat → DefinitionText → Except PastEnd DefinitionText
  | 0, t => .ok t
  | budget + 1, t =>
    match t.rest with
    | '\n' :: rest => do skipSpace s budget (← grow s { t with rest })
    | c :: rest => if isSpace c then skipSpace s budget { t with rest } else .ok t
    | [] => .ok t

/-- Follows a title over as many lines as it needs. The result is the title and the text after it,
if there is one. -/
def finishTitle? (s : Scope) (line : Nat) (rest : Text) :
    Nat → Destination.Title → Except PastEnd (Option (Text × DefinitionText))
  | _, .absent => .ok none
  | _, .complete title length => .ok (some (title, ⟨rest.drop length, line⟩))
  | 0, .unfinished _ _ => .ok none
  | budget + 1, .unfinished title closing => do
    match ← nextLine? s line with
    | none => return none
    | some more =>
      finishTitle? s (line + 1) more budget (Destination.continueTitle title closing more)

/-- Whether nothing but spaces is left on the line. -/
def endsLine (rest : Text) : Bool :=
  match rest.dropWhile isSpace with
  | [] => true
  | c :: _ => c == '\n'

end DefinitionText

/-- A link reference definition, and the line after it. -/
structure Definition where
  label : Text
  url : Text
  title : Text
  line : Nat

/-- The label and the destination of a definition, and the text behind them. -/
structure DefinitionHead where
  label : Text
  url : Text
  rest : DefinitionText

namespace DefinitionHead

/-- The definition with a given title, if it has a label. -/
def finish (head : DefinitionHead) (title : Text) (line : Nat) : Option Definition :=
  if head.label.isEmpty then none else some ⟨head.label, head.url, title, line⟩

/-- The definition that ends with its destination, which then has to end the line. -/
def finishBare (head : DefinitionHead) : Option Definition :=
  if DefinitionText.endsLine head.rest.rest then head.finish [] head.rest.line else none

/-- The definition whose title, if there is one, starts the text `title`; `found` is that title and
the text after it. -/
def conclude (head : DefinitionHead) (title : DefinitionText)
    (found : Option (Text × DefinitionText)) : Option Definition :=
  match found with
  | none => head.finishBare
  | some (text, after) =>
    let separate := title.rest.length != head.rest.rest.length || title.line != head.rest.line
    let accepted := separate || after.line != title.line
    if accepted && DefinitionText.endsLine after.rest then head.finish text after.line
    else if accepted && text.isEmpty then none
    else head.finishBare

end DefinitionHead

namespace Scope

open DefinitionText in
/-- Reads the definition that starts at a line up to its destination. The budget bounds the number
of steps. -/
def definitionHead? (s : Scope) (budget line : Nat) : Except PastEnd (Option DefinitionHead) := do
  if s.isCode line then return none
  let '[' :: rest := (s.line line).contentWithBreak | return none
  let some (label, afterLabel) ← label? s [] budget ⟨rest, line + 1⟩ | return none
  let ':' :: rest := afterLabel.rest | return none
  let start ← skipSpace s budget { afterLabel with rest }
  let some (destination, length) := Destination.read? start.rest | return none
  let url := Address.normalize destination
  if !Address.isAllowed url then return none
  return some ⟨labelKey label, url, { start with rest := start.rest.drop length }⟩

open DefinitionText in
def definition? (s : Scope) (line : Nat) : Except PastEnd (Option Definition) := do
  let size := s.lines.toList.foldl (fun size l => size + (l.stop + 2)) 2
  let some head ← s.definitionHead? size line | return none
  let title ← skipSpace s size head.rest
  let found ← finishTitle? s title.line title.rest size (Destination.readTitle title.rest)
  return head.conclude title found

end Scope

end MdxLocalization.Markdown
