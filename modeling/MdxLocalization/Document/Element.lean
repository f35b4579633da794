import MdxLocalization.Jsx.Tag
import MdxLocalization.Log.Traced
import MdxLocalization.ParseError

/-!
# JSX elements

Markdown sees the tags of a JSX element as raw HTML. Among sibling nodes, an opening tag and its
closing tag are folded into one element. The closing tag may stand in the same piece of HTML or in a
later one; elements of the same name between them are counted. The text between the tags in a piece
of HTML is read as a fragment of its own.
-/

namespace MdxLocalization.Document

/-- Reads the nodes of the region between two offsets. -/
abbrev FragmentReader := Nat → Nat → Traced ParseError (List Node)

abbrev Folder := List Node → Traced ParseError (List Node)

/-- The offsets of a piece of HTML. -/
def htmlRegion? (node : Node) : Option (Nat × Nat) :=
  match node.kind, node.span with
  | .html, some span => some (span.start.toNat, span.stop.toNat)
  | _, _ => none

/-- The first closing tag of an element between two offsets. -/
def closingTagIn? (source name : Text) (start stop : Nat) : Option (Nat × Nat) :=
  Jsx.findClosingTag? name start (Text.slice source start stop)

/-- How an element ends in a later piece of HTML. -/
structure Ending where
  /-- The siblings between the opening tag and that piece. -/
  between : List Node
  /-- Where that piece starts. -/
  start : Nat
  /-- The closing tag. -/
  tag : Nat × Nat

/-- The siblings with one more before them. -/
def Ending.addBefore (node : Node) (e : Ending) : Ending := { e with between := node :: e.between }

/-- Looks for the end of an element among the siblings after it; `depth` counts the open elements of
the same name within it. -/
def ending? (source name : Text) (depth : Nat) : List Node → Option Ending
  | [] => none
  | node :: rest =>
    match htmlRegion? node with
    | none => (ending? source name depth rest).map (·.addBefore node)
    | some (start, stop) =>
      let closing := closingTagIn? source name start stop
      let opens :=
        match Jsx.readTag? source start stop with
        | some nested => nested.name = name && !nested.selfClosing
        | none => false
      if opens then
        let depth := if closing.isNone then depth + 1 else depth
        (ending? source name depth rest).map (·.addBefore node)
      else
        match closing with
        | none => (ending? source name depth rest).map (·.addBefore node)
        | some tag =>
          match depth with
          | 0 => some ⟨[], start, tag⟩
          | depth + 1 => (ending? source name depth rest).map (·.addBefore node)

/-- The element that a node opens, and the number of siblings that belong to it. An element without
a closing tag has no children. -/
def element? (source : Text) (read : FragmentReader) (fold : Folder) (node : Node)
    (rest : List Node) : Traced ParseError (Option (Node × Nat)) := do
  let some (start, stop) := htmlRegion? node | return none
  let some tag := Jsx.readTag? source start stop | return none
  let info : NodeInfo :=
    { kind := .jsxElement, name := some tag.name, attributes := tag.attributes,
      span := some tag.span }
  let tagStop := tag.span.stop.toNat
  if tag.selfClosing then return some (.mk info [], 0)
  match closingTagIn? source tag.name tagStop stop with
  | some closing =>
    let children ← read tagStop closing.1
    return some (.mk { info with span := some (Span.ofNats start closing.2) } children, 0)
  | none =>
    let before ← read tagStop stop
    match ending? source tag.name 0 rest with
    | some e =>
      let after ← read e.start e.tag.1
      let children ← fold (before ++ e.between ++ after)
      return some (.mk { info with span := some (Span.ofNats start e.tag.2) } children,
        e.between.length + 1)
    | none =>
      Traced.log ⟨.warning, .parser, Text.ofString "JSX 元素缺少结束标签，按无子节点处理",
        [("name", .text tag.name)]⟩
      return some (.mk info [], 0)

/-- Folds the elements among siblings; a positive `skip` is the number of nodes that belong to the
element found last. -/
def foldFrom (source : Text) (read : FragmentReader) (fold : Folder) (skip : Nat) :
    List Node → Traced ParseError (List Node)
  | [] => return []
  | node :: rest =>
    match skip with
    | skip + 1 => foldFrom source read fold skip rest
    | 0 => do
      match ← element? source read fold node rest with
      | none => return node :: (← foldFrom source read fold 0 rest)
      | some (element, consumed) => return element :: (← foldFrom source read fold consumed rest)

end MdxLocalization.Document
