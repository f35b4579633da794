import MdxLocalization.Tree.Node

/-!
# Trees as JSON

The written form of a tree leaves out what is absent or empty. Positions are objects with a start
and an end; an attribute shows the position of its value.
-/

namespace MdxLocalization

def Span.toJson (s : Span) : Json := .record [("start", .integer s.start), ("end", .integer s.stop)]

def JsxAttribute.toJson (a : JsxAttribute) : Json :=
  .record [("name", .text a.name), ("value", .text a.value),
    ("position", Json.ofOption Span.toJson a.valueSpan)]

namespace Node

/-- A field that is left out when its value is absent. -/
def optionalField {α : Type} (name : String) (encode : α → Json) : Option α → List (Text × Json)
  | none => []
  | some a => [(Text.ofString name, encode a)]

/-- The fields of a written node, given its written children. -/
def toFields (info : NodeInfo) (children : List Json) : List (Text × Json) :=
  [(Text.ofString "type", .text info.kind.name)] ++
    optionalField "name" .text info.name ++
    optionalField "value" .text info.value ++
    optionalField "url" .text info.url ++
    optionalField "title" .text info.title ++
    optionalField "depth" .integer info.depth ++
    (if info.attributes.isEmpty then []
      else [(Text.ofString "attributes", .array (info.attributes.map JsxAttribute.toJson))]) ++
    (if info.data.isEmpty then [] else [(Text.ofString "data", .object info.data)]) ++
    optionalField "position" Span.toJson info.span ++
    (if children.isEmpty then [] else [(Text.ofString "children", .array children)])

mutual

/-- The written form of a node. -/
def toJson : Node → Json
  | .mk info children => .object (toFields info (listToJson children))

/-- The written forms of several nodes. -/
def listToJson : List Node → List Json
  | [] => []
  | node :: rest => toJson node :: listToJson rest

end

end Node

end MdxLocalization
