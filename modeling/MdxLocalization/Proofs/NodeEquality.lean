import MdxLocalization.Markdown.Block
import MdxLocalization.Tree.Node

/-!
# Comparing trees

Equality of JSON values, of trees and of blocks is decidable, so a tree that is computed can be
compared with one that is written down.
-/

namespace MdxLocalization

namespace Json

mutual

/-- Whether two values are the same. -/
def same : Json → Json → Bool
  | .null, .null => true
  | .bool a, .bool b => a == b
  | .integer m, .integer n => m == n
  | .real x, .real y => x == y
  | .text t, .text u => t == u
  | .array items, .array others => sameItems items others
  | .object fields, .object others => sameFields fields others
  | _, _ => false

def sameItems : List Json → List Json → Bool
  | [], [] => true
  | item :: rest, other :: others => same item other && sameItems rest others
  | _, _ => false

def sameFields : List (Text × Json) → List (Text × Json) → Bool
  | [], [] => true
  | field :: rest, other :: others => sameField field other && sameFields rest others
  | _, _ => false

def sameField : Text × Json → Text × Json → Bool
  | (name, value), (other, found) => name == other && same value found

end

mutual

theorem same_iff : (value other : Json) → (same value other = true ↔ value = other)
  | .null, other | .bool _, other | .integer _, other | .real _, other | .text _, other => by
      cases other <;> simp [same]
  | .array items, other => by
      cases other <;> simp [same, sameItems_iff items]
  | .object fields, other => by
      cases other <;> simp [same, sameFields_iff fields]

theorem sameItems_iff :
    (items others : List Json) → (sameItems items others = true ↔ items = others)
  | [], others => by
      cases others <;> simp [sameItems]
  | item :: rest, others => by
      cases others <;> simp [sameItems, same_iff item, sameItems_iff rest]

theorem sameFields_iff :
    (fields others : List (Text × Json)) → (sameFields fields others = true ↔ fields = others)
  | [], others => by
      cases others <;> simp [sameFields]
  | field :: rest, others => by
      cases others <;> simp [sameFields, sameField_iff field, sameFields_iff rest]

theorem sameField_iff : (field other : Text × Json) → (sameField field other = true ↔ field = other)
  | (name, value), (other, found) => by
      simp [sameField, same_iff value]

end

instance : DecidableEq Json := fun value other => decidable_of_iff _ (same_iff value other)

end Json

deriving instance DecidableEq for NodeInfo

namespace Node

mutual

/-- Whether two trees are the same. -/
def same : Node → Node → Bool
  | .mk info children, .mk other others => decide (info = other) && sameAll children others

def sameAll : List Node → List Node → Bool
  | [], [] => true
  | node :: rest, other :: others => same node other && sameAll rest others
  | _, _ => false

end

mutual

theorem same_iff : (node other : Node) → (same node other = true ↔ node = other)
  | .mk info children, .mk other others => by
      simp [same, sameAll_iff children]

theorem sameAll_iff : (nodes others : List Node) → (sameAll nodes others = true ↔ nodes = others)
  | [], others => by
      cases others <;> simp [sameAll]
  | node :: rest, others => by
      cases others <;> simp [sameAll, same_iff node, sameAll_iff rest]

end

instance : DecidableEq Node := fun node other => decidable_of_iff _ (same_iff node other)

end Node

namespace Markdown

deriving instance DecidableEq for TableRow

namespace Block

mutual

/-- Whether two blocks are the same. -/
def same : Block → Block → Bool
  | .frontMatter lines, .frontMatter others => lines == others
  | .heading lines inner depth atx content, .heading lines' inner' depth' atx' content' =>
    decide ((lines, inner, depth, atx, content) = (lines', inner', depth', atx', content'))
  | .paragraph lines tight content, .paragraph lines' tight' content' =>
    decide ((lines, tight, content) = (lines', tight', content'))
  | .indentedCode lines content, .indentedCode lines' content' =>
    decide ((lines, content) = (lines', content'))
  | .fencedCode lines info content, .fencedCode lines' info' content' =>
    decide ((lines, info, content) = (lines', info', content'))
  | .html lines content, .html lines' content' => decide ((lines, content) = (lines', content'))
  | .thematicBreak lines, .thematicBreak others => lines == others
  | .blockquote lines children, .blockquote lines' others =>
    lines == lines' && sameAll children others
  | .list lines start items, .list lines' start' others =>
    decide ((lines, start) = (lines', start')) && sameAll items others
  | .item lines children, .item lines' others => lines == lines' && sameAll children others
  | .table lines alignments header rows, .table lines' alignments' header' rows' =>
    decide ((lines, alignments, header, rows) = (lines', alignments', header', rows'))
  | .directive lines info children, .directive lines' info' others =>
    decide ((lines, info) = (lines', info')) && sameAll children others
  | .definition label url title, .definition label' url' title' =>
    decide ((label, url, title) = (label', url', title'))
  | _, _ => false

def sameAll : List Block → List Block → Bool
  | [], [] => true
  | block :: rest, other :: others => same block other && sameAll rest others
  | _, _ => false

end

mutual

theorem same_iff : (block other : Block) → (same block other = true ↔ block = other)
  | .frontMatter _, other | .heading _ _ _ _ _, other | .paragraph _ _ _, other
  | .indentedCode _ _, other | .fencedCode _ _ _, other | .html _ _, other
  | .thematicBreak _, other | .table _ _ _ _, other | .definition _ _ _, other => by
      cases other <;> simp [same]
  | .blockquote _ children, other | .list _ _ children, other | .item _ children, other
  | .directive _ _ children, other => by
      cases other <;> simp [same, sameAll_iff children, and_assoc]

theorem sameAll_iff : (blocks others : List Block) → (sameAll blocks others = true ↔ blocks = others)
  | [], others => by
      cases others <;> simp [sameAll]
  | block :: rest, others => by
      cases others <;> simp [sameAll, same_iff block, sameAll_iff rest]

end

instance : DecidableEq Block := fun block other => decidable_of_iff _ (same_iff block other)

end Block

end Markdown

end MdxLocalization
