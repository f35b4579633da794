import MdxLocalization.Json.Printer
import MdxLocalization.Tree.Node

/-!
# The source text of a node

A node is written as the slice of the source in its span, with the slices of its children replaced
by what the children are written as. What nobody changed therefore stays as it was. Links are built
anew from their label, address and title, because their address may have been localised; nodes
without a span are built from their value.
-/

namespace MdxLocalization.Extract

/-- Puts a backslash before every double quote of a title that has none yet. A backslash takes the
character after it along, except for a line feed. -/
def escapeTitle : Text → Text
  | [] => []
  | '\\' :: c :: rest =>
    if c = '\n' then '\\' :: '\n' :: escapeTitle rest else '\\' :: c :: escapeTitle rest
  | c :: rest => if c = '"' then '\\' :: '"' :: escapeTitle rest else c :: escapeTitle rest

/-- The text of a link with a given label. -/
def linkText (info : NodeInfo) (label : Text) : Text :=
  let url := info.url.getD []
  let url := if info.flag "angle" then '<' :: url ++ ['>'] else url
  let title :=
    match info.title with
    | some title => ' ' :: '"' :: escapeTitle title ++ ['"']
    | none => []
  '[' :: label ++ ']' :: '(' :: url ++ title ++ [')']

/-- The form of a data field in text. -/
def dataText : Option Json → Text
  | none => []
  | some (.text t) => t
  | some value => value.display

/-- The text of a node without a span; `children` is the text of its children. -/
def unplacedText (info : NodeInfo) (hasChildren : Bool) (children : Text) : Text :=
  let value := info.value.getD []
  match info.kind with
  | .text => value
  | .inlineCode => '\x60' :: value ++ ['\x60']
  | .code =>
    let fence := ['\x60', '\x60', '\x60']
    fence ++ dataText (info.dataField? "lang") ++ '\n' :: value ++ '\n' :: fence ++ ['\n']
  | _ => if hasChildren then children else value

mutual

def sourceText (source : Text) : Node → Text
  | .mk info children =>
    match info.kind, info.span with
    | .link, _ => linkText info (sourceTexts source children)
    | _, some span => sourceBetween source span.stop span.start children
    | _, none => unplacedText info (!children.isEmpty) (sourceTexts source children)

/-- The texts of several nodes, one after the other. -/
def sourceTexts (source : Text) : List Node → Text
  | [] => []
  | node :: rest => sourceText source node ++ sourceTexts source rest

/-- The source from `cursor` up to `stop` with the slices of the children replaced by their texts.
A child that is not placed, starts before the cursor or ends after the stop is passed over. -/
def sourceBetween (source : Text) (stop cursor : Int) : List Node → Text
  | [] => Text.window source cursor stop
  | .mk info children :: rest =>
    match info.span with
    | none => sourceBetween source stop cursor rest
    | some span =>
      if span.start < cursor || stop < span.stop then sourceBetween source stop cursor rest
      else
        Text.window source cursor span.start ++ sourceText source (.mk info children) ++
          sourceBetween source stop span.stop rest

end

end MdxLocalization.Extract
