import MdxLocalization.Document.Element
import MdxLocalization.Document.Fragment
import MdxLocalization.Esm
import MdxLocalization.Inline.Scan
import MdxLocalization.Markdown.Reading

/-!
# Parsing documents

A document is parsed in three steps: its blocks are read, each block becomes a node with its
position in the source, and the tags of JSX elements among siblings are folded. Folding reads
fragments between tags, which are parsed in the same way; since a fragment lies within the element
around it, the length of the source bounds how deep this goes.

How the content of a paragraph is found in the source is a parameter of all but the last step.
-/

namespace MdxLocalization.Document

open Markdown (Block LineRange)

/-- How the region of the content of a paragraph is found, if it has any. -/
abbrev ParagraphLocator := Fragment → LineRange → Text → Traced ParseError (Option Region)

def inlineNodes (f : Fragment) (region : Region) : Traced ParseError (List Node) :=
  Traced.ofExcept (Inline.scan f.source region.1 region.2)

/-- The node of front matter. Its value are the lines between the marks. -/
def frontMatterNode (f : Fragment) (lines : LineRange) : Node :=
  let first := lines.first + 1
  let value :=
    if lines.last < first + 2 then []
    else Text.slice f.source (f.lines.start first) (f.lines.stop (lines.last - 2))
  .mk
    { kind := .yaml, value := some value,
      data := [(Text.ofString "valueStart", .ofNat (f.lines.start first))],
      span := some (Span.ofNats (f.lines.start lines.first) (f.lines.stop (lines.last - 1))) } []

/-- The region of the content of a heading, if it has any. -/
def headingRegion (locate : ParagraphLocator) (f : Fragment) (lines inner : LineRange) (atx : Bool)
    (content : Text) : Traced ParseError (Option Region) :=
  if atx then pure (f.locateHeading? lines.first content) else locate f inner content

/-- The node of a heading. -/
def headingNode (locate : ParagraphLocator) (f : Fragment) (lines inner : LineRange) (depth : Nat)
    (atx : Bool) (content : Text) : Traced ParseError Node := do
  let info : NodeInfo :=
    { kind := .heading, depth := some depth, span := some (f.spanOfLines lines),
      data := [(Text.ofString "setext", .bool !atx)] }
  match ← headingRegion locate f lines inner atx content with
  | none => return .mk info []
  | some region => return .mk info (← inlineNodes f region)

/-- The node of a block of module statements. -/
def esmNode (f : Fragment) (start stop : Nat) : Node :=
  .mk
    { kind := .esm, value := some (Text.slice f.source start stop),
      span := some (Span.ofNats start stop) }
    ((Esm.imports f.source start stop).map fun (literal, span) =>
      .mk { kind := .importDeclaration, value := some literal, span := some span } [])

/-- The node of a paragraph. At top level of a document it may be a block of module statements. -/
def paragraphNode (locate : ParagraphLocator) (f : Fragment) (outermost : Bool) (lines : LineRange)
    (content : Text) : Traced ParseError Node := do
  match ← locate f lines content with
  | none => return .mk { kind := .paragraph } []
  | some (start, stop) =>
    if f.whole && outermost && Esm.isModuleBlock (Text.slice f.source start stop) then
      return esmNode f start stop
    return .mk { kind := .paragraph, span := some (Span.ofNats start stop) }
      (← inlineNodes f (start, stop))

/-- The node of a cell, whose region is known when the row has a cell there. -/
def cellNode (f : Fragment) : Option Region → Traced ParseError Node
  | some (start, stop) => do
    if start < stop then
      return .mk { kind := .tableCell, span := some (Span.ofNats start stop) }
        (← inlineNodes f (start, stop))
    return .mk { kind := .tableCell } []
  | none => return .mk { kind := .tableCell } []

def rowNode (f : Fragment) (row : Markdown.TableRow) : Traced ParseError Node := do
  let regions := f.locateCells row.line
  let cells ← (List.range row.cells.length).mapM fun i => cellNode f regions[i]?
  return .mk { kind := .tableRow, span := some (f.spanOfLines ⟨row.line, row.line + 1⟩) } cells

def codeNode (f : Fragment) (lines : LineRange) (info content : Text) : Node :=
  let lang := Text.trim info
  .mk
    { kind := .code, value := some content, span := some (f.spanOfLines lines),
      data := if lang.isEmpty then [] else [(Text.ofString "lang", .text lang)] } []

/-- The node of the label of a directive. -/
def labelNodes (f : Fragment) (line : Nat) : Traced ParseError (List Node) := do
  match f.locateLabel? line with
  | none => return []
  | some (start, stop) =>
    let children ← inlineNodes f (start + 1, stop - 1)
    return [.mk
      { kind := .paragraph, span := some (Span.ofNats start stop),
        data := [(Text.ofString "directiveLabel", .bool true)] } children]

mutual

/-- The nodes of a block: one, or none for a block that only others refer to. -/
def blockNodes (locate : ParagraphLocator) (f : Fragment) (fold : Folder) (outermost : Bool) :
    Block → Traced ParseError (List Node)
  | .frontMatter lines => return [frontMatterNode f lines]
  | .heading lines inner depth atx content =>
    return [← headingNode locate f lines inner depth atx content]
  | .paragraph lines _ content => return [← paragraphNode locate f outermost lines content]
  | .indentedCode lines content => return [codeNode f lines [] content]
  | .fencedCode lines info content => return [codeNode f lines info content]
  | .html lines _ => do
    let span := f.spanOfLines lines
    return [.mk { kind := .html, value := some (span.slice f.source), span := some span } []]
  | .thematicBreak lines =>
    return [.mk { kind := .thematicBreak, span := some (f.spanOfLines lines) } []]
  | .blockquote lines children => do
    return [.mk { kind := .blockquote, span := some (f.spanOfLines lines) }
      (← nodesOfBlocks locate f fold false children)]
  | .list lines start items => do
    return [.mk
      { kind := .list, span := some (f.spanOfLines lines),
        data := [(Text.ofString "ordered", .bool start.isSome)] }
      (← nodesOfBlocks locate f fold false items)]
  | .item lines children => do
    return [.mk { kind := .listItem, span := some (f.spanOfLines lines) }
      (← fold (← nodesOfBlocks locate f fold false children))]
  | .table lines _ header rows => do
    return [.mk { kind := .table, span := some (f.spanOfLines lines) }
      (← (header :: rows).mapM (rowNode f))]
  | .directive lines info children => do
    let label ← labelNodes f lines.first
    let body ← fold (← nodesOfBlocks locate f fold false children)
    return [.mk
      { kind := .directive, span := some (f.directiveSpan lines),
        name := some ((Markdown.Rule.directiveName? info).getD (Text.trim info)) }
      (label ++ body)]
  | .definition _ _ _ => return []

def nodesOfBlocks (locate : ParagraphLocator) (f : Fragment) (fold : Folder) (outermost : Bool) :
    List Block → Traced ParseError (List Node)
  | [] => return []
  | block :: rest => do
    let nodes ← blockNodes locate f fold outermost block
    return nodes ++ (← nodesOfBlocks locate f fold outermost rest)

end

/-- The nodes of a fragment, its elements folded. -/
def fragmentNodes (locate : ParagraphLocator) (f : Fragment) (fold : Folder) :
    Traced ParseError (List Node) := do
  let blocks ← Traced.ofExcept ((Markdown.blocks f.text).mapError .ofBlocks)
  fold (← nodesOfBlocks locate f fold true blocks)

/-- Folds the elements among siblings. Elements are nested at most as deep as the budget. -/
def foldElements (locate : ParagraphLocator) (source : Text) : Nat → Folder
  | 0, nodes => return nodes
  | budget + 1, nodes =>
    let inner := foldElements locate source budget
    let read := fun start stop =>
      if Text.isBlankText (Text.slice source start stop) then return []
      else fragmentNodes locate (Fragment.between source start stop false) inner
    foldFrom source read inner 0 nodes

/-- The tree of a document whose paragraphs are located in a given way. -/
def parseWith (locate : ParagraphLocator) (source : Text) : Traced ParseError Node := do
  let f := Fragment.between source 0 source.length true
  let children ← fragmentNodes locate f (foldElements locate source (source.length + 1))
  Traced.log ⟨.debug, .parser, Text.ofString "文档解析完成", [("node_count", .ofNat children.length)]⟩
  let span := if source.isEmpty then none else some (Span.ofNats 0 source.length)
  return .mk { kind := .root, span } children

/-- The tree of a document. -/
def parse (source : Text) : Traced ParseError Node := parseWith Fragment.locateParagraph source

end MdxLocalization.Document
