import MdxLocalization.Markdown.Definition

/-!
# Blocks without blocks in them

Each rule looks at the block that starts at a line, and gives the block and the line after it. The
rules for code, fences, breaks, HTML, headings, paragraphs, tables and front matter are independent
of each other but for the question what may interrupt what.
-/

namespace MdxLocalization.Markdown

/-- What a rule gives: a block and the line after it. -/
abbrev Found := Option (Block × Nat)

namespace Scope

/-- The last line, counted from one past it, of an indented code block: blank lines at its end do
not belong to it. `last` is the end so far. -/
def codeStop (s : Scope) (last : Nat) : List Nat → Nat
  | [] => last
  | i :: rest =>
    if s.isEmpty i then codeStop s last rest
    else if s.isCode i then codeStop s (i + 1) rest
    else last

def indentedCode? (s : Scope) (start stop : Nat) : Except PastEnd Found := do
  if !s.isCode start then return none
  let last := s.codeStop (start + 1) (List.range' (start + 1) (stop - (start + 1)))
  let content ← s.text start last (4 + s.indent) false
  return some (.indentedCode ⟨start, last⟩ (content ++ ['\n']), last)

/-- Where a block between two marks ends: the line of the closing mark, or the line at which it ends
without one. -/
inductive Closing where
  | mark (line : Nat)
  | missing (line : Nat)

namespace Closing

/-- The line at which the content of the block ends. -/
def line : Closing → Nat
  | mark i => i
  | missing i => i

/-- The line after the block. -/
def next : Closing → Nat
  | mark i => i + 1
  | missing i => i

end Closing

/-- Looks for the line that closes a fenced code block. A line at the end of the text without any
character ends it as well. -/
def fenceClosing (s : Scope) (fence : Rule) (stop : Nat) : List Nat → Closing
  | [] => .missing stop
  | i :: rest =>
    let l := s.line i
    if !l.isEmpty && s.isOutdented i then .missing i
    else
      match l.char? l.first with
      | none => .missing i
      | some c =>
        if c = fence.char && !s.isCode i && fence.isClosedBy l.content then .mark i
        else fenceClosing s fence stop rest

/-- A fenced code block. -/
def fencedCode? (s : Scope) (start stop : Nat) : Except PastEnd Found := do
  match s.fence? start with
  | none => return none
  | some fence =>
    let closing := s.fenceClosing fence (max stop (start + 1))
      (List.range' (start + 1) (stop - (start + 1)))
    let content ← s.text (start + 1) closing.line (s.line start).indent true
    return some (.fencedCode ⟨start, closing.next⟩ fence.info content, closing.next)

def thematicBreak? (s : Scope) (start : Nat) : Found :=
  if s.isBreak start then some (.thematicBreak ⟨start, start + 1⟩, start + 1) else none

/-- The line at which an HTML block ends. -/
def htmlStop (s : Scope) (kind : HtmlTag.BlockKind) (stop : Nat) : List Nat → Nat
  | [] => stop
  | i :: rest =>
    if s.isOutdented i then i
    else
      let content := (s.line i).content
      if HtmlTag.endsBlock kind content then (if content.isEmpty then i else i + 1)
      else htmlStop s kind stop rest

/-- A block of raw HTML. -/
def htmlBlock? (s : Scope) (start stop : Nat) : Except PastEnd Found := do
  match s.html? start with
  | none => return none
  | some kind =>
    let last :=
      if HtmlTag.endsBlock kind (s.line start).content then start + 1
      else s.htmlStop kind (max stop (start + 1)) (List.range' (start + 1) (stop - (start + 1)))
    return some (.html ⟨start, last⟩ (← s.text start last s.indent true), last)

/-- A heading with number signs. -/
def atxHeadingBlock? (s : Scope) (start : Nat) : Found :=
  (s.heading? start).map fun (depth, content) =>
    let lines := LineRange.mk start (start + 1)
    (.heading lines lines depth true content, start + 1)

/-- Looks for the underline that makes a heading of the lines before it: its line and the depth. -/
def underlineAt? (s : Scope) (stop : Nat) : List Nat → Except PastEnd (Option (Nat × Nat))
  | [] => .ok none
  | i :: rest => do
    let l := s.line i
    if l.isEmpty then return none
    if 3 < l.indent - s.indent then underlineAt? s stop rest
    else
      match if s.isOutdented i then none else underline? l.content with
      | some depth => return some (i, depth)
      | none =>
        if l.indent < 0 then underlineAt? s stop rest
        else if ← s.endsParagraph i stop then return none
        else underlineAt? s stop rest

/-- A heading with an underline. -/
def underlinedHeading? (s : Scope) (start stop : Nat) : Except PastEnd Found := do
  if s.isCode start then return none
  match ← s.underlineAt? stop (List.range' (start + 1) (stop - (start + 1))) with
  | none => return none
  | some (line, depth) =>
    let content ← s.paragraphText start line
    return some (.heading ⟨start, line + 1⟩ ⟨start, line⟩ depth false content, line + 1)

/-- The line at which a paragraph ends. -/
def paragraphStop (s : Scope) : List Nat → Except PastEnd Nat
  | [] => .ok s.stop
  | i :: rest => do
    let l := s.line i
    if l.isEmpty then return i
    if 3 < l.indent - s.indent || l.indent < 0 then paragraphStop s rest
    else if ← s.endsParagraph i s.stop then return i
    else paragraphStop s rest

def paragraph (s : Scope) (start : Nat) : Except PastEnd (Block × Nat) := do
  let last ← s.paragraphStop (List.range' (start + 1) (s.stop - (start + 1)))
  let last := max last (start + 1)
  return (.paragraph ⟨start, last⟩ false (← s.paragraphText start last), last)

/-- The most cells that are added to the rows of one table. -/
def maxAddedCells : Int := 65536

/-- The rows of a table after its header, and the line after them. `added` counts the cells that had
to be added so far, less those that were left out. -/
def tableRows (s : Scope) (width : Nat) (stop : Nat) (added : Int) :
    List Nat → Except PastEnd (List TableRow × Nat)
  | [] => .ok ([], stop)
  | i :: rest => do
    if s.isOutdented i then return ([], i)
    if ← s.endsQuote i then return ([], i)
    let content := trimContent (s.line i).content
    if content.isEmpty || s.isCode i then return ([], i)
    let cells := rowCells content
    let added := added + (width : Int) - cells.length
    if maxAddedCells < added then return ([], i)
    let (rows, last) ← tableRows s width stop added rest
    return (⟨i, fitCells width cells⟩ :: rows, last)

/-- A table. -/
def table? (s : Scope) (start stop : Nat) : Except PastEnd Found := do
  match tableHeader? s start stop with
  | none => return none
  | some header =>
    let (rows, last) ← s.tableRows header.cells.length stop 0
      (List.range' (start + 2) (stop - (start + 2)))
    return some (.table ⟨start, last⟩ header.alignments ⟨start, header.cells⟩ rows, last)

/-- Whether a line is the other mark that closes front matter: three points at its very start. -/
def isDots (l : Line) : Bool := Text.dropEndWhile isSpace (l.after l.start) = ['.', '.', '.']

/-- Looks for the line that closes front matter, and gives the line after it. -/
def frontMatterStop? (s : Scope) (length : Nat) : List Nat → Except PastEnd (Option Nat)
  | [] => .ok none
  | i :: rest => do
    let l := s.line i
    if !l.isEmpty && s.isOutdented i then return some i
    if isDots l then return some (i + 1)
    let c ← l.char l.first
    if c = '-' && !s.isCode i && (Rule.mk '-' length []).isClosedBy l.content then
      return some (i + 1)
    frontMatterStop? s length rest

/-- Front matter, which can only start with the text. Its opening line has at least three dashes;
the first one is that at which the text starts. -/
def frontMatter? (s : Scope) (start stop : Nat) : Except PastEnd Found := do
  let l := s.line start
  if start ≠ 0 || l.chars[0]? ≠ some '-' then return none
  let length := 1 + Text.countWhile (· == '-') (l.after (l.first + 1))
  if length < 3 then return none
  match ← s.frontMatterStop? length (List.range' 1 (stop - 1)) with
  | none => return none
  | some last => return some (.frontMatter ⟨0, last⟩, last)

end Scope

end MdxLocalization.Markdown
