import MdxLocalization.Console.Markup
import MdxLocalization.Console.Wrap
import MdxLocalization.Json.Printer
import MdxLocalization.Text.Upper

/-!
# Log panels

An event is shown on a console as one line when it is meant for debugging, and as a panel otherwise:
a box with level and component in its upper edge, the time in its lower one, and inside the message
with a table of the event's values. Values are shown in their displayed form, cut to a length. The
table has a column of names, moved to the right and of a fixed width, and a column of values that is
as wide as they need.

What is shown of an event is written in fields: the message, time, level and component have fields
of their own, and all others are values. An event without a message shows nothing.
-/

namespace MdxLocalization

/-- How events are shown. -/
structure LogPanel where
  /-- The length of a displayed value. -/
  valueLength : Int := 120
  showsTime : Bool := true
  showsSource : Bool := true
  /-- The width of the column of names. -/
  nameWidth : Nat := 12

namespace LogPanel

open Console

/-- The name of a level, filled up to eight characters; an unknown level is written in capitals. -/
def levelText (level : Text) : Text :=
  if ["debug", "info", "warning", "error", "critical"].contains (Text.toString level) then
    Text.upper level ++ spaces (8 - level.length)
  else Text.upper level

/-- The style of a level. -/
def levelStyle (level : Text) : String :=
  match Text.toString level with
  | "debug" => "blue"
  | "info" => "green"
  | "warning" => "yellow"
  | "error" => "bold red"
  | "critical" => "bold magenta"
  | _ => "default"

/-- A value in displayed form, with an ellipsis for what is too long. A length below one counts from
the end. -/
def valueText (p : LogPanel) (value : Json) : Text :=
  let whole := value.display
  if p.valueLength < whole.length then Text.window whole 0 (p.valueLength - 1) ++ ['…'] else whole

/-- An event taken apart. -/
structure Parts where
  message : Text
  time : Text
  level : Text
  source : Text
  values : List (Text × Json)

/-- The order of values by their names. -/
def byName (a b : Text × Json) : Bool :=
  !List.lex (b.1.map Char.toNat) (a.1.map Char.toNat) fun x y => decide (x < y)

/-- Takes the fields of an event apart. -/
def partsOf (fields : List (Text × Json)) : Parts :=
  let valueOf := fun name fallback =>
    ((Json.fieldOf? fields name).map Json.plainText).getD (Text.ofString fallback)
  let own := ["event", "timestamp", "level", "logger"].map Text.ofString
  { message := Text.trim (valueOf "event" ""), time := valueOf "timestamp" "",
    level := (valueOf "level" "info").map Char.toLower, source := valueOf "logger" "unknown"
    values := (fields.filter fun field => !own.contains field.1).mergeSort byName }

/-- The text with a component in parentheses. -/
def sourceText (source : Text) : Text := '(' :: source ++ [')']

/-- An event on one line. -/
def line (p : LogPanel) (e : Parts) : Text :=
  let time := if p.showsTime && !e.time.isEmpty then e.time ++ [' '] else []
  let values := e.values.flatMap fun (name, value) => ' ' :: name ++ '=' :: p.valueText value
  let source := if p.showsSource then ' ' :: sourceText e.source else []
  Text.trimEnd (shownUnwrapped (visible
    (time ++ levelText e.level ++ ' ' :: e.message ++ values ++ source)))

/-- The lines of a text at every kind of line break. -/
def textLines (t : Text) : List Text :=
  Text.splitOn '\n' (t.map fun c =>
    if [0x1C, 0x1D, 0x1E, 0x85, 0x2028, 0x2029].contains c.toNat then '\n' else c)

def neededWidth (t : Text) : Nat := ((textLines t).map cellWidth).foldl max 0

/-- The largest width of the inside of a panel, with its margins. -/
def innerLimit : Nat := rowWidth - 2

/-- A row of the table: its name and its value. -/
structure Row where
  name : Text
  value : Text

/-- The widths of the columns of a table that may be so wide, each with a margin of one cell on both
sides. -/
def columnWidths (p : LogPanel) (rows : List Row) (limit : Nat) : Nat × Nat :=
  let names := min (p.nameWidth + 2) limit
  let values := min ((rows.map fun row => neededWidth row.value).foldl max 0 + 2) limit
  (names, if names + values ≤ limit then values else limit - names)

/-- The lines of a cell, with its margins. -/
def cellLines (width : Nat) (wrapped : Nat → List Text) : List Text :=
  let inner := width - 2
  if inner = 0 then [] else (wrapped inner).map fun l => ' ' :: padRight inner l ++ [' ']

def rowLines (widths : Nat × Nat) (row : Row) : List Text :=
  let names := cellLines widths.1 fun width => wrapRight width .ellipsis row.name
  let values := cellLines widths.2 fun width => wrap width .fold row.value
  let height := max 1 (max names.length values.length)
  (List.range height).map fun i =>
    padRight widths.1 (names.getD i []) ++ padRight widths.2 (values.getD i [])

/-- A text for an edge of a panel: on one line, with a space on both sides. -/
def edgeText (t : Text) : Text :=
  ' ' :: expandTabs 0 (t.map fun c => if c = '\n' then ' ' else c) ++ [' ']

/-- An edge of a panel of some inner width, with a text at its start or its end. -/
def edge (left right : Char) (width : Nat) (atEnd : Bool) (t : Option Text) : Text :=
  let rule := fun n => List.replicate n '─'
  match t with
  | none => left :: rule width ++ [right]
  | some t =>
    let shownText := cropLine (width - 2) .fold t
    let rest := rule (width - 2 - cellWidth shownText)
    left :: '─' :: (if atEnd then rest ++ shownText else shownText ++ rest) ++ ['─', right]

/-- An event as a panel. -/
def box (p : LogPanel) (e : Parts) : Except MarkupError Text := do
  let levelTitle := Text.ofString ("[" ++ levelStyle e.level ++ "]") ++ levelText e.level ++
    Text.ofString "[/]"
  let sourceTitle := if p.showsSource then
    Text.ofString " [cyan dim]" ++ sourceText e.source ++ Text.ofString "[/]" else []
  let title ← plain (levelTitle ++ sourceTitle)
  let title := if title.isEmpty then none else some (edgeText title)
  let time := visible (if p.showsTime then e.time else [])
  let time := if time.isEmpty then none else some (edgeText time)
  let rows ← e.values.mapM fun (name, value) => do
    return Row.mk (← plain (name ++ [' ', ':'])) (p.valueText value)
  let message := visible e.message
  let (names, values) := p.columnWidths rows innerLimit
  let tableWidth := if rows.isEmpty then 0 else names + values
  let content := min innerLimit (max (neededWidth message) tableWidth + 2)
  let width := match title with
    | some t => min innerLimit (max content (cellWidth t + 2))
    | none => content
  let inner := width - 2
  let widths := p.columnWidths rows inner
  let lines := wrap inner .fold message ++ rows.flatMap (rowLines widths)
  let body := lines.map fun l => '│' :: ' ' :: padRight inner l ++ [' ', '│']
  return Text.trimEnd (Text.join ['\n']
    ([edge '╭' '╮' width false title] ++ body ++ [edge '╰' '╯' width true time]))

/-- What is shown of an event. -/
def render (p : LogPanel) (fields : List (Text × Json)) : Except MarkupError Text :=
  let e := partsOf fields
  if e.message.isEmpty then .ok []
  else if e.level = Text.ofString "debug" then .ok (p.line e)
  else p.box e

end LogPanel

end MdxLocalization
