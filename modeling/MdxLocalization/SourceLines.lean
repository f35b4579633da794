import MdxLocalization.Text.Blank

/-!
# Lines and their positions

`SourceLines` records where each line of a text starts and stops. A line break is a carriage return
with a line feed, or one of the two alone, so the lines are those of the text with its breaks
normalised, while all offsets count characters of the text as it stands. The offsets are shifted by
a base: the text may be a fragment of a larger one.
-/

namespace MdxLocalization

/-- The start of each line and the end of its content, counted from `start`, which is where the
current line began; `position` is where the rest of the text begins. -/
def lineBounds (start position : Nat) : Text → List (Nat × Nat)
  | [] => [(start, position)]
  | '\r' :: '\n' :: rest => (start, position) :: lineBounds (position + 2) (position + 2) rest
  | c :: rest =>
    if c = '\r' || c = '\n' then
      (start, position) :: lineBounds (position + 1) (position + 1) rest
    else lineBounds start (position + 1) rest

/-- The lines of a text that begins at offset `base` of a document. -/
structure SourceLines where
  text : Text
  base : Nat
  bounds : List (Nat × Nat)
  deriving Repr

namespace SourceLines

/-- The lines of a text and where they stand. -/
def ofText (text : Text) (base : Nat) : SourceLines := ⟨text, base, lineBounds 0 0 text⟩

/-- The number of lines, at least one. -/
def size (lines : SourceLines) : Nat := lines.bounds.length

/-- The offset at which a line starts; past the last line, the end of the text. -/
def start (lines : SourceLines) (line : Nat) : Nat :=
  lines.base + ((lines.bounds[line]?).map Prod.fst).getD lines.text.length

/-- The offset at which the content of a line ends; past the last line, the end of the text. -/
def stop (lines : SourceLines) (line : Nat) : Nat :=
  lines.base + ((lines.bounds[line]?).map Prod.snd).getD lines.text.length

/-- The content of a line, without its break; past the last line, nothing. -/
def line (lines : SourceLines) (line : Nat) : Text :=
  match lines.bounds[line]? with
  | some (start, stop) => Text.slice lines.text start stop
  | none => []

/-- Whether a line has nothing but white space. -/
def isBlank (lines : SourceLines) (line : Nat) : Bool := Text.isBlankText (lines.line line)

/-- Moves the end of a line range back over blank lines, but keeps its first line. -/
def trimRange (lines : SourceLines) (first : Nat) : Nat → Nat
  | 0 => 0
  | last + 1 =>
    if first < last && lines.isBlank last then trimRange lines first last else last + 1

/-- The offsets of the lines `first ≤ i < last`, without the indentation of the first line, blank
lines at the end, and the blanks that end the last line. -/
def extent (lines : SourceLines) (first last : Nat) : Nat × Nat :=
  let last := trimRange lines first last
  let indent := Text.countWhile Text.isIndent (lines.line first)
  let start := lines.start first + indent
  let trimmed := Text.dropEndWhile Text.isIndent (lines.line (last - 1))
  let stop := lines.start (last - 1) + trimmed.length
  (start, max start stop)

end SourceLines

end MdxLocalization
