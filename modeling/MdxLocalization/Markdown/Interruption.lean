import MdxLocalization.Markdown.HtmlTag
import MdxLocalization.Markdown.Mark
import MdxLocalization.Markdown.TableMark

/-!
# Interruption

A paragraph goes on until a blank line or until a line that starts another kind of block. Which
kinds count depends on what is being read: a paragraph, a link reference definition, a block quote
or a list.
-/

namespace MdxLocalization.Markdown

namespace Scope

def directive? (s : Scope) (i : Nat) : Except PastEnd (Option Rule) :=
  if s.isCode i then .ok none
  else do
    let l := s.line i
    let c ← l.char l.first
    return if c = ':' then Rule.directive? l.content else none

def fence? (s : Scope) (i : Nat) : Option Rule :=
  if s.isCode i then none else Rule.fence? (s.line i).content

/-- Whether a block quote starts at a line. -/
def isQuote (s : Scope) (i : Nat) : Bool :=
  !s.isCode i && (s.line i).content.head? == some '>'

def isBreak (s : Scope) (i : Nat) : Bool := !s.isCode i && isThematicBreak (s.line i).content

/-- The mark of the list that starts at a line. A line that is indented deeper than the list around
it, but less than the content of the item, does not start one. -/
def listMark? (s : Scope) (i : Nat) : Option ListMark :=
  let indent := (s.line i).indent
  let continues := (s.listIndent.any fun column => decide (4 ≤ indent - column)) && s.isOutdented i
  if s.isCode i || continues then none else ListMark.read? (s.line i).content

def interruptingList? (s : Scope) (i : Nat) : Option ListMark :=
  (s.listMark? i).filter fun m => s.isOutdented i || m.mayInterrupt (s.line i).content

def html? (s : Scope) (i : Nat) : Option HtmlTag.BlockKind :=
  if s.isCode i then none else HtmlTag.blockKind? (s.line i).content

/-- The heading with number signs that a line is. -/
def heading? (s : Scope) (i : Nat) : Option (Nat × Text) :=
  if s.isCode i then none else atxHeading? (s.line i).content

/-- Whether a line ends the list before it, although it might continue it. -/
def endsList (s : Scope) (i : Nat) : Except PastEnd Bool := do
  if (← s.directive? i).isSome then return true
  return (s.fence? i).isSome || s.isQuote i || s.isBreak i

def startsMarkup (s : Scope) (i : Nat) : Bool :=
  (s.html? i).any HtmlTag.mayInterrupt || (s.heading? i).isSome

/-- Whether a line ends the block quote or table before it. -/
def endsQuote (s : Scope) (i : Nat) : Except PastEnd Bool := do
  if ← s.endsList i then return true
  return (s.listMark? i).isSome || s.startsMarkup i

/-- Whether a line ends the link reference definition before it. -/
def endsDefinition (s : Scope) (i stop : Nat) : Except PastEnd Bool := do
  if (tableHeader? s i stop).isSome then return true
  s.endsQuote i

/-- Whether a line ends the paragraph before it. -/
def endsParagraph (s : Scope) (i stop : Nat) : Except PastEnd Bool := do
  if (tableHeader? s i stop).isSome then return true
  if ← s.endsList i then return true
  return (s.interruptingList? i).isSome || s.startsMarkup i

end Scope

end MdxLocalization.Markdown
