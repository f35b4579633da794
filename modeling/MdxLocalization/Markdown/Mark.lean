import MdxLocalization.Markdown.Line
import MdxLocalization.Text.Word

/-!
# Marks that open blocks

Most blocks are recognised by the mark that their first line starts with. The recognisers here look
at the content of one line.
-/

namespace MdxLocalization.Markdown

/-- Whether a text has nothing but spaces and tabs. -/
def isSpaceText (t : Text) : Bool := t.all isSpace

/-- Whether a text is empty or goes on with a space or tab. -/
def endsMark : Text → Bool
  | [] => true
  | c :: _ => isSpace c

/-- A row of one character that opens a block: how long it is and the rest of the line. -/
structure Rule where
  char : Char
  length : Nat
  info : Text

namespace Rule

/-- The row of a character that starts a line. -/
def read (c : Char) (t : Text) : Rule :=
  let length := Text.countWhile (· == c) t
  ⟨c, length, t.drop length⟩

/-- Whether a line closes the block that a row opened: a row at least as long, and spaces. -/
def isClosedBy (r : Rule) (t : Text) : Bool :=
  let closing := read r.char t
  decide (r.length ≤ closing.length) && isSpaceText closing.info

/-- The fence of code blocks: at least three backticks or tildes. What follows backticks must not
contain any. -/
def fence? (t : Text) : Option Rule :=
  match t with
  | c :: _ =>
    if c = '\x60' || c = '~' then
      let r := read c t
      if 3 ≤ r.length && !(c == '\x60' && r.info.contains c) then some r else none
    else none
  | [] => none

/-- The name of a directive, which starts with a letter. -/
def directiveName? (info : Text) : Option Text :=
  match Text.trimStart info with
  | c :: rest =>
    if c.isAlpha then some (c :: rest.takeWhile fun d => Text.isWord d || d == '-') else none
  | [] => none

/-- The mark of a directive: at least three colons and a name. -/
def directive? (t : Text) : Option Rule :=
  let r := read ':' t
  if 3 ≤ r.length && (directiveName? r.info).isSome then some r else none

end Rule

/-- Whether a line is a thematic break: at least three of one mark, and spaces between them. -/
def isThematicBreak (t : Text) : Bool :=
  match t with
  | c :: _ =>
    (c == '*' || c == '-' || c == '_') && t.all (fun d => d == c || isSpace d) &&
      decide (3 ≤ t.count c)
  | [] => false

/-- The depth and the content of a heading with number signs. A row of number signs at the end of
the line belongs to the mark. -/
def atxHeading? (t : Text) : Option (Nat × Text) :=
  let r := Rule.read '#' t
  if 1 ≤ r.length && r.length ≤ 6 && endsMark r.info then
    let body := Text.dropEndWhile isSpace r.info
    let bare := Text.dropEndWhile (· == '#') body
    let content := if (bare.getLast?).any isSpace then bare else body
    some (r.length, trimContent content)
  else none

/-- The depth of the heading that an underline makes of the lines before it. -/
def underline? (t : Text) : Option Nat :=
  match t with
  | c :: _ =>
    if (c = '=' || c = '-') && isSpaceText (Rule.read c t).info then
      some (if c = '=' then 1 else 2)
    else none
  | [] => none

/-- The mark of a list item. An ordered item has a number. -/
structure ListMark where
  number : Option Nat
  char : Char
  length : Nat

namespace ListMark

/-- The mark of an item that starts a line: a number of at most nine digits with a point or bracket,
or a bullet. -/
def read? (t : Text) : Option ListMark :=
  let digits := t.takeWhile Char.isDigit
  match t.drop digits.length with
  | c :: rest =>
    if digits.isEmpty then
      if (c = '*' || c = '-' || c = '+') && endsMark rest then some ⟨none, c, 1⟩ else none
    else if digits.length ≤ 9 && (c = '.' || c = ')') && endsMark rest then
      some ⟨some (digits.foldl (fun n d => n * 10 + (d.toNat - 48)) 0), c, digits.length + 1⟩
    else none
  | [] => none

/-- Whether an item with this mark may follow an item with another one. -/
def continues (m first : ListMark) : Bool :=
  m.number.isSome == first.number.isSome && m.char == first.char

/-- Whether an item may interrupt a paragraph: an ordered one starts with one, and none is empty. -/
def mayInterrupt (m : ListMark) (t : Text) : Bool :=
  (m.number.all (· == 1)) && !isSpaceText (t.drop m.length)

end ListMark

end MdxLocalization.Markdown
