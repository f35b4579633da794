import MdxLocalization.Markdown.Leaf

/-!
# Blocks in blocks

Block quotes, list items and directives hold blocks. Each of these rules finds the lines of its
content, enters them, and leaves it to a reader to read the blocks there; the reader is a parameter,
so that the depth of nesting can be bounded where the rules are put together.
-/

namespace MdxLocalization.Markdown

namespace Line

/-- The column after a run of spaces and tabs, in a line whose columns are counted from `origin`. -/
def columnFrom (origin column : Int) (t : Text) : Int :=
  t.foldl (fun column c => if c = '\t' then column + (4 - (column + origin) % 4) else column + 1)
    column

/-- The line behind the mark of a block quote. One space after the mark belongs to it; of a tab that
is wider than one column, the rest remains. -/
def enterQuote (l : Line) : Line :=
  let column := l.indent + 1
  let next := l.chars[l.first + 1]?
  let narrow := next == some '\t' && (l.columns + column) % 4 == 3
  let skipped := next == some ' ' || narrow
  let spaced := next == some ' ' || next == some '\t'
  let start := l.first + 1 + (if skipped then 1 else 0)
  let initial := if skipped then column + 1 else column
  let origin := l.columns + (if spaced && !skipped then 1 else 0)
  let lead := (l.after start).takeWhile isSpace
  { l with
    start, shift := lead.length,
    indent := columnFrom origin initial lead - initial,
    columns := l.indent + 1 + (if spaced then 1 else 0) }

/-- A line that continues a paragraph of a block quote without its mark. -/
def asContinuation (l : Line) : Line := { l with indent := -1 }

end Line

namespace Scope

/-- The lines of a block quote: the scope within it, the line after it, and whether another block
ended it. `lastEmpty` tells whether the line before has nothing behind its mark. -/
def quoteLines (s : Scope) (stop : Nat) (lastEmpty : Bool) :
    List Nat → Except PastEnd (Scope × Nat)
  | [] => .ok (s, stop)
  | i :: rest => do
    let l := s.line i
    if l.isEmpty then return (s, i)
    if l.chars[l.first]? = some '>' && !s.isOutdented i then
      let entered := l.enterQuote
      quoteLines (s.setLine i entered) stop entered.isEmpty rest
    else if lastEmpty then return (s, i)
    else if ← s.endsQuote i then return ({ s with stop := i }, i)
    else quoteLines (s.setLine i l.asContinuation) stop false rest

/-- A block quote. -/
def quote? (reader : Reader) (s : Scope) (start stop : Nat) : Except PastEnd Found := do
  if !s.isQuote start then return none
  let entered := (s.line start).enterQuote
  let (inner, last) ← (s.setLine start entered).quoteLines (max stop (start + 1)) entered.isEmpty
    (List.range' (start + 1) (stop - (start + 1)))
  let parsed ← reader { inner with indent := 0 } start last
  return some (.blockquote ⟨start, parsed.line⟩ parsed.blocks, parsed.line)

/-- Looks for the line that closes a directive. -/
def directiveClosing (s : Scope) (mark : Rule) (stop : Nat) : List Nat → Except PastEnd Closing
  | [] => .ok (.missing stop)
  | i :: rest => do
    let l := s.line i
    if !l.isEmpty && s.isOutdented i then return .missing i
    let c ← l.char l.first
    if c = mark.char && !s.isCode i && mark.isClosedBy l.content then return .mark i
    directiveClosing s mark stop rest

/-- A directive. -/
def directiveBlock? (reader : Reader) (s : Scope) (start stop : Nat) : Except PastEnd Found := do
  match ← s.directive? start with
  | none => return none
  | some mark =>
    let closing ← s.directiveClosing mark (max stop (start + 1))
      (List.range' (start + 1) (stop - (start + 1)))
    let parsed ← reader { s with stop := closing.line } (start + 1) closing.line
    return some (.directive ⟨start, closing.line⟩ mark.info parsed.blocks, closing.next)

/-- The line of a list item behind its mark, and the column at which the content starts. -/
def enterItem (l : Line) (mark : ListMark) : Line × Int :=
  let initial := l.indent + mark.length
  let position := l.first + mark.length
  let lead := (l.after position).takeWhile isSpace
  let column := Line.columnFrom l.columns initial lead
  let contentStart := position + lead.length
  let width := if l.stop ≤ contentStart then 1 else column - initial
  let width := if 4 < width then 1 else width
  ({ l with shift := contentStart - l.start, indent := column }, initial + width)

/-- Reads the item that starts at a line. The content of an item with an empty first line has to
start on the next line. -/
def item (reader : Reader) (s : Scope) (mark : ListMark) (start stop : Nat) :
    Except PastEnd Parsed := do
  let (entered, indent) := enterItem (s.line start) mark
  if entered.isEmpty && s.isEmpty (start + 1) then return ⟨[], min (start + 2) stop, true⟩
  reader { s.setLine start entered with indent, listIndent := some s.indent } start stop

/-- The items of a list from the one that starts at a line. `gap` tells whether the item before
ended with a blank line. The result is the items, the line after them, and whether the list is
tight. The budget bounds the number of items. -/
def items (reader : Reader) (s : Scope) (first : ListMark) (gap : Bool) (stop : Nat) :
    Nat → ListMark → Nat → Except PastEnd Parsed
  | 0, _, start => .ok ⟨[], start, true⟩
  | budget + 1, mark, start => do
    let parsed ← item reader s mark start stop
    let last := parsed.line
    let block := Block.item ⟨start, last⟩ parsed.blocks
    let tight := parsed.tight && !gap
    let done := Parsed.mk [block] last tight
    if stop ≤ last || s.isOutdented last || s.isCode last then return done
    if ← s.endsList last then return done
    match ListMark.read? (s.line last).content with
    | none => return done
    | some next =>
      if !next.continues first then return done
      let gap := decide (1 < last - start) && s.isEmpty (last - 1)
      let rest ← items reader s first gap stop budget next last
      return ⟨block :: rest.blocks, rest.line, tight && rest.tight⟩

/-- A paragraph directly in a tight list. -/
def tightenBlock : Block → Block
  | .paragraph lines _ content => .paragraph lines true content
  | block => block

def tightenItem : Block → Block
  | .item lines children => .item lines (children.map tightenBlock)
  | block => block

/-- A list. -/
def list? (reader : Reader) (s : Scope) (start stop : Nat) : Except PastEnd Found := do
  match s.listMark? start with
  | none => return none
  | some mark =>
    let parsed ← s.items reader mark false stop (stop - start) mark start
    let blocks := if parsed.tight then parsed.blocks.map tightenItem else parsed.blocks
    return some (.list ⟨start, parsed.line⟩ mark.number blocks, parsed.line)

/-- A link reference definition. -/
def definitionBlock? (s : Scope) (start : Nat) : Except PastEnd Found := do
  return (← s.definition? start).map fun d => (.definition d.label d.url d.title, d.line)

end Scope

end MdxLocalization.Markdown
