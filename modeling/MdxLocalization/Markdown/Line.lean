import MdxLocalization.Text.Blank

/-!
# Source lines

The block parser sees a text as an array of lines. A line knows where its content starts at the
current nesting depth, how far the content is indented, and how many columns the marks before it
take up, which decides how wide a tab is. Entering a block quote or a list item changes these facts
of a line, not the line itself.

A last line of blanks alone that no line break ends is not a line. A line that is not there behaves
like an empty one at the end of the text.
-/

namespace MdxLocalization.Markdown

/-- The only way in which a rule for blocks fails: it asked for a character past the end of the
text. -/
structure PastEnd where
  deriving DecidableEq, Repr

/-- White space within a line: space or tab. -/
def isSpace (c : Char) : Bool := c == ' ' || c == '\t'

/-- White space around the content of blocks. -/
def isContentSpace (c : Char) : Bool :=
  let n := c.toNat
  (0x09 ≤ n && n ≤ 0x0D) || n == 0x20 || n == 0xA0 || n == 0x1680 || (0x2000 ≤ n && n ≤ 0x200A) ||
    n == 0x2028 || n == 0x2029 || n == 0x202F || n == 0x205F || n == 0x3000

/-- Content without white space at its ends. -/
def trimContent (t : Text) : Text := Text.dropEndWhile isContentSpace (t.dropWhile isContentSpace)

/-- A line of the source. -/
structure Line where
  chars : Array Char
  /-- Whether a line break follows. -/
  terminated : Bool
  /-- Where the line starts at the current depth. -/
  start : Nat
  /-- The number of characters from there to the content. -/
  shift : Nat
  /-- The column of the content, negative for a line that merely continues a paragraph. -/
  indent : Int
  /-- The columns taken up before the start of the line. -/
  columns : Int
  deriving Inhabited

namespace Line

/-- The line past the end of a text. -/
def absent : Line := ⟨#[], false, 0, 0, 0, 0⟩

def first (l : Line) : Nat := l.start + l.shift

def stop (l : Line) : Nat := l.chars.size

/-- Whether a line has no content. -/
def isEmpty (l : Line) : Bool := l.stop ≤ l.first

/-- The character at a position, which may be that of the line break. -/
def char? (l : Line) (position : Nat) : Option Char :=
  match l.chars[position]? with
  | some c => some c
  | none => if position = l.stop && l.terminated then some '\n' else none

/-- The character at a position of a text that has to reach that far. -/
def char (l : Line) (position : Nat) : Except PastEnd Char :=
  match l.char? position with
  | some c => .ok c
  | none => .error ⟨⟩

/-- The characters between two positions. -/
def slice (l : Line) (start stop : Nat) : Text := (l.chars.extract start stop).toList

def content (l : Line) : Text := l.slice l.first l.stop

def contentWithBreak (l : Line) : Text := l.content ++ (if l.terminated then ['\n'] else [])

/-- The characters from a position on. -/
def after (l : Line) (position : Nat) : Text := l.slice position l.stop

/-- The column after a run of spaces and tabs that begins in a given column. -/
def columnAfter (column : Nat) (t : Text) : Nat :=
  t.foldl (fun column c => if c = '\t' then column + (4 - column % 4) else column + 1) column

/-- A line as it stands in the source. -/
def ofText (t : Text) (terminated : Bool) : Line :=
  let lead := t.takeWhile isSpace
  { chars := t.toArray, terminated, start := 0, shift := lead.length,
    indent := columnAfter 0 lead, columns := 0 }

/-- The lines of a text whose line breaks are line feeds. -/
def listOfText (t : Text) : List Line :=
  let pieces := Text.splitOn '\n' t
  let complete := pieces.dropLast.map fun piece => ofText piece true
  match pieces.getLast? with
  | some piece => if piece.all isSpace then complete else complete ++ [ofText piece false]
  | none => complete

/-- The state of removing indentation from a line: where it stands and how many columns it has
removed. -/
structure Cut where
  position : Nat
  column : Int

/-- Removes up to `indent` columns from the start of a line. Marks of the blocks around it count as
one column each. -/
def cutIndent (l : Line) (indent : Int) (last : Nat) : Nat → Cut → Except PastEnd Cut
  | 0, cut => .ok cut
  | budget + 1, cut =>
    if cut.position < last && cut.column < indent then do
      let c ← l.char cut.position
      if c = '\t' then
        cutIndent l indent last budget
          ⟨cut.position + 1, cut.column + (4 - (cut.column + l.columns) % 4)⟩
      else if c = ' ' || cut.position - l.start < l.shift then
        cutIndent l indent last budget ⟨cut.position + 1, cut.column + 1⟩
      else return cut
    else .ok cut

/-- A line without `indent` columns of indentation. A tab that is cut in two leaves spaces. -/
def withoutIndent (l : Line) (indent : Int) (withBreak : Bool) : Except PastEnd Text := do
  let last := if withBreak then l.stop + 1 else l.stop
  let cut ← cutIndent l indent last (last - l.start) ⟨l.start, 0⟩
  let text := l.after cut.position ++
    (if withBreak && l.terminated && cut.position ≤ l.stop then ['\n'] else [])
  return List.replicate (cut.column - indent).toNat ' ' ++ text

end Line

end MdxLocalization.Markdown
