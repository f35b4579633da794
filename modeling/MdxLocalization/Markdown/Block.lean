import MdxLocalization.Text.Basic

/-!
# Blocks

The block structure of a Markdown text is a tree. Each block records the lines that it covers,
counted from zero; blocks with inline content keep it as text, trimmed and without the marks of the
blocks around it.
-/

namespace MdxLocalization.Markdown

/-- The lines `first ≤ i < last`. -/
structure LineRange where
  first : Nat
  last : Nat
  deriving DecidableEq, Repr

/-- How the cells of a table column are aligned. -/
inductive Alignment where
  | none
  | left
  | center
  | right
  deriving DecidableEq, Repr

/-- A row of a table, as wide as its header. -/
structure TableRow where
  line : Nat
  cells : List Text
  deriving Repr

/-- A block. -/
inductive Block where
  | frontMatter (lines : LineRange)
  | heading (lines inner : LineRange) (depth : Nat) (atx : Bool) (content : Text)
  | paragraph (lines : LineRange) (tight : Bool) (content : Text)
  | indentedCode (lines : LineRange) (content : Text)
  | fencedCode (lines : LineRange) (info content : Text)
  | html (lines : LineRange) (content : Text)
  | thematicBreak (lines : LineRange)
  | blockquote (lines : LineRange) (children : List Block)
  /-- A list; an ordered one has a start number. -/
  | list (lines : LineRange) (start : Option Nat) (items : List Block)
  | item (lines : LineRange) (children : List Block)
  | table (lines : LineRange) (alignments : List Alignment) (header : TableRow)
      (rows : List TableRow)
  /-- A container; `info` is the rest of its opening line. -/
  | directive (lines : LineRange) (info : Text) (children : List Block)
  /-- A link reference definition, which shows only in the links that refer to it. -/
  | definition (label url title : Text)
  deriving Inhabited

end MdxLocalization.Markdown
