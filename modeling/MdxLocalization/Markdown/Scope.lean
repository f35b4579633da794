import MdxLocalization.Markdown.Block
import MdxLocalization.Markdown.Line

/-!
# Scopes

A scope is what a block rule sees: the lines of the source as the blocks around it have left them,
where the lines that belong to it stop, and how far the content of the enclosing list item is
indented. A nested block is read in a scope of its own; the scope outside is not changed by it.
-/

namespace MdxLocalization.Markdown

/-- The lines that a rule may look at. -/
structure Scope where
  lines : Array Line
  /-- Paragraphs do not reach past this line. -/
  stop : Nat
  /-- The column at which the content of the enclosing list item starts. -/
  indent : Int
  /-- The column at which the enclosing list starts. -/
  listIndent : Option Int

/-- What reading a range of lines gives: the blocks, the line after them, and whether no blank line
stands between them. -/
structure Parsed where
  blocks : List Block
  line : Nat
  tight : Bool

/-- A way to read the blocks of a range of lines in a scope. -/
abbrev Reader := Scope → Nat → Nat → Except PastEnd Parsed

namespace Scope

def ofText (t : Text) : Scope :=
  let lines := (Line.listOfText t).toArray
  ⟨lines, lines.size, 0, none⟩

def line (s : Scope) (i : Nat) : Line := (s.lines[i]?).getD Line.absent

def setLine (s : Scope) (i : Nat) (l : Line) : Scope :=
  { s with lines := s.lines.setIfInBounds i l }

/-- Whether a line has no content. -/
def isEmpty (s : Scope) (i : Nat) : Bool := (s.line i).isEmpty

def isCode (s : Scope) (i : Nat) : Bool := decide (4 ≤ (s.line i).indent - s.indent)

/-- Whether a line is indented less than the content of the enclosing list item. -/
def isOutdented (s : Scope) (i : Nat) : Bool := decide ((s.line i).indent < s.indent)

/-- The first line from `i` on that has content. -/
def skipEmpty (s : Scope) (i : Nat) : Nat :=
  i + ((List.range' i (s.stop - i)).takeWhile s.isEmpty).length

/-- The text of the lines `first ≤ i < last` without `indent` columns of indentation; `withBreak`
tells whether the break of the last line belongs to it. -/
def text (s : Scope) (first last : Nat) (indent : Int) (withBreak : Bool) :
    Except PastEnd Text := do
  let pieces ← (List.range' first (last - first)).mapM fun i =>
    (s.line i).withoutIndent indent (decide (i + 1 < last) || withBreak)
  return pieces.flatten

def paragraphText (s : Scope) (first last : Nat) : Except PastEnd Text := do
  return trimContent (← s.text first last s.indent false)

end Scope

end MdxLocalization.Markdown
