import MdxLocalization.Json.Value
import MdxLocalization.Span

/-!
# Document trees

A document is a tree of nodes. Every node has a kind and may have a span in the source text; other
facts depend on the kind: the value of a text, the address of a link, the attributes of an element.
Nodes that a caller builds may lack any of these, so they are optional throughout. Facts that only
some producers record are kept as JSON fields in `data`.
-/

namespace MdxLocalization

/-- The kinds of nodes. Kinds that the library gives no meaning to keep their name. -/
inductive NodeKind where
  | root
  | yaml
  | esm
  | importDeclaration
  | heading
  | paragraph
  | text
  | link
  | image
  | inlineCode
  | code
  | list
  | listItem
  | table
  | tableRow
  | tableCell
  | directive
  | jsxElement
  | blockquote
  | html
  | thematicBreak
  | other (name : Text)
  deriving DecidableEq, Repr

namespace NodeKind

/-- The name of a kind in a written tree. -/
def name : NodeKind → Text
  | .root => Text.ofString "root"
  | .yaml => Text.ofString "yaml"
  | .esm => Text.ofString "mdxjsEsm"
  | .importDeclaration => Text.ofString "importDeclaration"
  | .heading => Text.ofString "heading"
  | .paragraph => Text.ofString "paragraph"
  | .text => Text.ofString "text"
  | .link => Text.ofString "link"
  | .image => Text.ofString "image"
  | .inlineCode => Text.ofString "inlineCode"
  | .code => Text.ofString "code"
  | .list => Text.ofString "list"
  | .listItem => Text.ofString "listItem"
  | .table => Text.ofString "table"
  | .tableRow => Text.ofString "tableRow"
  | .tableCell => Text.ofString "tableCell"
  | .directive => Text.ofString "containerDirective"
  | .jsxElement => Text.ofString "mdxJsxFlowElement"
  | .blockquote => Text.ofString "blockquote"
  | .html => Text.ofString "html"
  | .thematicBreak => Text.ofString "thematicBreak"
  | .other name => name

/-- The kinds that have a meaning here. -/
def known : List NodeKind :=
  [root, yaml, esm, importDeclaration, heading, paragraph, text, link, image, inlineCode, code,
    list, listItem, table, tableRow, tableCell, directive, jsxElement, blockquote, html,
    thematicBreak]

def ofName (name : Text) : NodeKind := (known.find? (·.name = name)).getD (.other name)

end NodeKind

/-- An attribute of an element. Only a literal value has a span of its own. -/
structure JsxAttribute where
  name : Text
  value : Text
  span : Option Span
  valueSpan : Option Span
  deriving Repr, DecidableEq

/-- What a node records besides its children. -/
structure NodeInfo where
  kind : NodeKind
  span : Option Span := none
  value : Option Text := none
  name : Option Text := none
  attributes : List JsxAttribute := []
  url : Option Text := none
  title : Option Text := none
  depth : Option Int := none
  data : List (Text × Json) := []
  deriving Repr

/-- A node: its own facts and its children in document order. -/
inductive Node where
  | mk (info : NodeInfo) (children : List Node)

instance : Inhabited Node := ⟨.mk ⟨.root, none, none, none, [], none, none, none, []⟩ []⟩

/-- The failure of a node without a span where one is needed. -/
structure MissingPosition where
  kind : NodeKind
  deriving Repr, DecidableEq

/-- The message of the failure. -/
def MissingPosition.message (e : MissingPosition) : Text :=
  Text.ofString "节点 '" ++ e.kind.name ++ Text.ofString "' 缺少位置信息，无法计算偏移量。"

namespace NodeInfo

/-- The value of a field of `data`. -/
def dataField? (info : NodeInfo) (name : String) : Option Json := Json.fieldOf? info.data name

/-- Whether a field of `data` is present and not empty. -/
def flag (info : NodeInfo) (name : String) : Bool :=
  match info.dataField? name with
  | some value => !value.isEmpty
  | none => false

def attributeNamed? (info : NodeInfo) (name : Text) : Option JsxAttribute :=
  info.attributes.find? (·.name = name)

/-- The span of the node, which has to be there. -/
def spanOrFail (info : NodeInfo) : Except MissingPosition Span :=
  match info.span with
  | some span => .ok span
  | none => .error ⟨info.kind⟩

end NodeInfo

namespace Node

/-- The facts of a node. -/
def info : Node → NodeInfo
  | .mk info _ => info

def children : Node → List Node
  | .mk _ children => children

def kind (node : Node) : NodeKind := node.info.kind

def span (node : Node) : Option Span := node.info.span

def childOfKind? (node : Node) (kind : NodeKind) : Option Node :=
  node.children.find? (·.kind = kind)

end Node

end MdxLocalization
