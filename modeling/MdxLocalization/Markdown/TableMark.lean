import MdxLocalization.Markdown.Scope

/-!
# Rows of tables

A table starts with a header row and a delimiter row, which gives the alignment of each column. The
cells of a row stand between vertical bars; a bar after a backslash belongs to its cell, and the
backslash is then left out.
-/

namespace MdxLocalization.Markdown

/-- The pieces of a row between bars. `escaped` tells whether a backslash stands directly before. -/
def splitRow (escaped : Bool) (current : Text) : Text → List Text
  | [] => [current.reverse]
  | c :: rest =>
    if c = '|' then
      if escaped then splitRow false ('|' :: current.drop 1) rest
      else current.reverse :: splitRow false [] rest
    else splitRow (c == '\\') (c :: current) rest

/-- The cells of a row, without an empty one at either end. -/
def rowCells (t : Text) : List Text :=
  let cells := splitRow false [] (trimContent t)
  let cells := if cells.head? = some [] then cells.drop 1 else cells
  if cells.getLast? = some [] then cells.dropLast else cells

/-- The alignment that a cell of the delimiter row stands for: dashes, with a colon at the sides to
which the column is aligned. -/
def alignment? (t : Text) : Option Alignment :=
  let left := t.head? == some ':'
  let body := if left then t.drop 1 else t
  let right := body.getLast? == some ':'
  let dashes := if right then body.dropLast else body
  if !dashes.isEmpty && dashes.all (· == '-') then
    some (match left, right with
      | true, true => .center
      | true, false => .left
      | false, true => .right
      | false, false => .none)
  else none

/-- The alignments of the columns, from the pieces of the delimiter row. The first and the last
piece may be empty. -/
def alignments? (pieces : List Text) : Option (List Alignment) :=
  let pieces := pieces.map Text.trim
  let pieces := if pieces.head? = some [] then pieces.drop 1 else pieces
  let pieces := if pieces.getLast? = some [] then pieces.dropLast else pieces
  pieces.mapM alignment?

/-- The alignments that a delimiter row gives. -/
def delimiterRow? (t : Text) : Option (List Alignment) :=
  let isBar := fun c : Char => c == '|' || c == '-' || c == ':'
  match t with
  | first :: second :: rest =>
    if isBar first && (isBar second || isSpace second) && !(first == '-' && isSpace second) &&
        rest.all (fun c => isBar c || isSpace c) then
      alignments? (Text.splitOn '|' t)
    else none
  | _ => none

/-- The cells of a header row with the alignments of the columns. -/
structure TableHeader where
  cells : List Text
  alignments : List Alignment

/-- The header of the table that starts at a line. -/
def tableHeader? (s : Scope) (line stop : Nat) : Option TableHeader :=
  if line + 2 ≤ stop && !s.isOutdented (line + 1) && !s.isCode (line + 1) then
    match delimiterRow? (s.line (line + 1)).content with
    | some alignments =>
      let header := (s.line line).content
      let cells := rowCells header
      if header.contains '|' && !s.isCode line && !cells.isEmpty &&
          cells.length = alignments.length then
        some ⟨cells.map trimContent, alignments⟩
      else none
    | none => none
  else none

/-- The cells of a further row, as many as the header has. -/
def fitCells (width : Nat) (cells : List Text) : List Text :=
  (cells.map trimContent ++ List.replicate width []).take width

end MdxLocalization.Markdown
