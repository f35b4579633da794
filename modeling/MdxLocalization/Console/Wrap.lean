import MdxLocalization.Console.CellWidth
import MdxLocalization.Text.Blank

/-!
# Wrapping lines

A text is wrapped line by line: a word that does not fit on the current line starts a new one. A
word that fits on no line is folded, that is cut into lines, or left to be cropped. White space
belongs to the word before it; what of it reaches past the width is dropped.
-/

namespace MdxLocalization.Console

/-- What becomes of a word that fits on no line. -/
inductive Overflow where
  | fold
  /-- The word is cut, and an ellipsis stands for the rest. -/
  | ellipsis
  deriving DecidableEq, Repr

/-- Replaces tabs by spaces up to the next multiple of eight cells, from a column on. -/
def expandTabs (column : Nat) : Text → Text
  | [] => []
  | '\t' :: rest =>
    let count := 8 - column % 8
    spaces count ++ expandTabs (column + count) rest
  | c :: rest => c :: expandTabs (column + charWidth c) rest

/-- The words of a line, each with the white space after it; the first also has the white space
before it. A line of white space has no words. -/
def lineWords (word : Text) (after : Bool) : Text → List Text
  | [] => if after then [word.reverse] else if Text.isBlankText word then [] else [word.reverse]
  | c :: rest =>
    if Text.isBlank c then lineWords (c :: word) (after || !Text.isBlankText word) rest
    else if after then word.reverse :: lineWords [c] false rest
    else lineWords (c :: word) false rest

/-- Cuts a word into pieces that fit. The piece at hand is held in reverse order, with its width. -/
def foldWord (width : Nat) (piece : Text) (used : Nat) : Text → List Text
  | [] => [piece.reverse]
  | c :: rest =>
    if used + charWidth c > width then piece.reverse :: foldWord width [c] (charWidth c) rest
    else foldWord width (c :: piece) (used + charWidth c) rest

/-- Puts words on lines. The current line is held with its width; it is empty only before the first
word. -/
def fillLines (width : Nat) (overflow : Overflow) (line : Text) (used : Nat) :
    List Text → List Text
  | [] => [line]
  | word :: rest =>
    let needed := cellWidth (Text.trimEnd word)
    let closed := if line.isEmpty then [] else [line]
    if used + needed ≤ width then
      fillLines width overflow (line ++ word) (used + cellWidth word) rest
    else if needed > width && overflow = .fold then
      let pieces := foldWord width [] 0 word
      let last := pieces.getLast?.getD []
      closed ++ pieces.dropLast ++ fillLines width overflow last (cellWidth last) rest
    else closed ++ fillLines width overflow word (cellWidth word) rest

/-- Drops white space at the end of a line, as far as the line is longer than the width. -/
def dropExcess (width : Nat) (line : Text) : Text :=
  let blanks := line.length - (Text.trimEnd line).length
  line.take (line.length - min blanks (line.length - width))

/-- The lines that a line without breaks is wrapped into. -/
def wrapLine (width : Nat) (overflow : Overflow) (line : Text) : List Text :=
  let line := if line.contains '\t' then expandTabs 0 line else line
  let lines :=
    match lineWords [] false line with
    | [] => [line]
    | words => fillLines width overflow [] 0 words
  lines.map (dropExcess width)

def cropLine (width : Nat) (overflow : Overflow) (line : Text) : Text :=
  if cellWidth line ≤ width then line
  else
    match overflow with
    | .fold => fitCells width line
    | .ellipsis => fitCells (width - 1) line ++ ['…']

/-- The lines of a text, none wider than the width. -/
def wrap (width : Nat) (overflow : Overflow) (t : Text) : List Text :=
  ((Text.splitOn '\n' t).flatMap (wrapLine width overflow)).map (cropLine width overflow)

/-- The lines of a text, moved to the right end of the width. -/
def wrapRight (width : Nat) (overflow : Overflow) (t : Text) : List Text :=
  ((Text.splitOn '\n' t).flatMap (wrapLine width overflow)).map fun line =>
    padLeft width (cropLine width overflow (Text.trimEnd line))

/-- The number of cells that a console has in a row. -/
def rowWidth : Nat := 200

/-- What a console shows for a text: its lines, wrapped to the width of a row. -/
def shown (t : Text) : Text := Text.join ['\n'] (wrap rowWidth .fold t) ++ ['\n']

def shownUnwrapped (t : Text) : Text :=
  Text.join ['\n'] ((Text.splitOn '\n' t).map fun line =>
    if line.contains '\t' then expandTabs 0 line else line) ++ ['\n']

end MdxLocalization.Console
