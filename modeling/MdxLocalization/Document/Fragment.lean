import MdxLocalization.SourceLines
import MdxLocalization.Log.Traced
import MdxLocalization.Markdown.Block
import MdxLocalization.Markdown.Mark
import MdxLocalization.ParseError
import MdxLocalization.Span

/-!
# Where content stands in a fragment

A fragment is a part of a source whose blocks have been read by themselves. Blocks know their lines
and their trimmed content; this module finds the offsets of both in the source. Content is looked
for in the lines as they stand there, with the marks of the blocks around them. Where the content
cannot be told apart from its lines, whole lines are taken.
-/

namespace MdxLocalization.Document

open Markdown (LineRange)

/-- A part of a source. -/
structure Fragment where
  source : Text
  start : Nat
  stop : Nat
  lines : SourceLines
  /-- Whether it is the whole document. -/
  whole : Bool

/-- Offsets `start ≤ i < stop` of a source. -/
abbrev Region := Nat × Nat

namespace Fragment

def between (source : Text) (start stop : Nat) (whole : Bool) : Fragment :=
  ⟨source, start, stop, SourceLines.ofText (Text.slice source start stop) start, whole⟩

def text (f : Fragment) : Text := f.lines.text

def spanOfLines (f : Fragment) (lines : LineRange) : Span :=
  let (start, stop) := f.lines.extent lines.first lines.last
  Span.ofNats start stop

/-- The span of a directive, to which the line of the closing mark belongs. -/
def directiveSpan (f : Fragment) (lines : LineRange) : Span :=
  f.spanOfLines
    (if lines.last < f.lines.size then { lines with last := lines.last + 1 } else lines)

/-- The offset at which the content of a line starts. The content is the end of the line or, failing
that, a piece of it. -/
def contentOffset (f : Fragment) (line : Nat) (content : Text) (isLast : Bool) : Nat :=
  let text := f.lines.line line
  let text := if isLast then Text.dropEndWhile Text.isIndent text else text
  let start := f.lines.start line
  if Text.endsWith text content then start + (text.length - content.length)
  else
    let core := Text.trim content
    match (if core.isEmpty then none else Text.find? core text) with
    | some n => start + n
    | none => start + (text.length - (Text.trimStart content).length)

/-- The region of the content of a paragraph. -/
def locateParagraph {ε : Type} (f : Fragment) (lines : LineRange) (content : Text) :
    Traced ε (Option Region) := do
  if content.isEmpty then return none
  let contents := Text.splitOn '\n' content
  if contents.length + lines.first ≠ lines.last then
    Traced.log ⟨.debug, .parser, Text.ofString "行内内容与行号范围不一致，回退到整行定位",
      [("map", .array [.ofNat lines.first, .ofNat lines.last])]⟩
    return some (f.lines.extent lines.first lines.last)
  let firstLine := contents.head?.getD []
  let lastLine := contents.getLast?.getD []
  let start := f.contentOffset lines.first firstLine (contents.length = 1)
  let stop := f.contentOffset (lines.last - 1) lastLine true + lastLine.length
  return some (start, max start stop)

/-- The region of the content of a heading with number signs. -/
def locateHeading? (f : Fragment) (line : Nat) (content : Text) : Option Region :=
  if content.isEmpty then none
  else
    let text := f.lines.line line
    let indent := Text.countWhile Text.isIndent text
    let signs := min 6 (Text.countWhile (· == '#') (text.drop indent))
    let marker := if signs = 0 then 0 else indent + signs
    (Text.find? content (text.drop marker)).map fun n =>
      let start := f.lines.start line + marker + n
      (start, start + content.length)

/-- The positions of the cells of a row in a line: between bars that no backslash escapes. `start`
is where the current cell starts and `position` where the text starts. -/
def cellBounds (start position : Nat) (escaped : Bool) : Text → List Region
  | [] => [(start, position)]
  | c :: rest =>
    if c = '|' && !escaped then
      (start, position) :: cellBounds (position + 1) (position + 1) false rest
    else cellBounds start (position + 1) (c == '\\' && !escaped) rest

/-- The regions of the cells of a row, without the white space around their content. Blank text
before the first and after the last bar is no cell. -/
def locateCells (f : Fragment) (line : Nat) : List Region :=
  let text := f.lines.line line
  let base := f.lines.start line
  let isBlank := fun (bounds : Region) => Text.isBlankText (Text.slice text bounds.1 bounds.2)
  let bounds := cellBounds 0 0 false text
  let bounds := if bounds.head?.any isBlank then bounds.drop 1 else bounds
  let bounds := if bounds.getLast?.any isBlank then bounds.dropLast else bounds
  bounds.map fun (start, stop) =>
    let cell := Text.slice text start stop
    let lead := cell.length - (Text.trimStart cell).length
    let trail := cell.length - (Text.trimEnd cell).length
    (base + start + lead, base + max (start + lead) (stop - trail))

/-- The region of the label of a directive, with its square brackets. The label follows the name and
ends with the last closing bracket of the line. -/
def locateLabel? (f : Fragment) (line : Nat) : Option Region :=
  let text := f.lines.line line
  let indent := Text.countWhile Text.isIndent text
  let marks := Text.countWhile (· == ':') (text.drop indent)
  let gap := Text.countWhile Text.isIndent (text.drop (indent + marks))
  let start := indent + marks + gap
  match text.drop start with
  | c :: rest =>
    if 3 ≤ marks && c.isAlpha then
      let name := 1 + Text.countWhile (fun d => Text.isWord d || d == '-') rest
      match text.drop (start + name) with
      | '[' :: body =>
        let inner := (body.reverse.dropWhile (· != ']')).drop 1
        if inner.isEmpty || Text.isBlankText inner then none
        else
          let base := f.lines.start line + start + name
          some (base, base + inner.length + 2)
      | _ => none
    else none
  | [] => none

end Fragment

end MdxLocalization.Document
