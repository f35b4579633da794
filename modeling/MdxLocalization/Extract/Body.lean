import MdxLocalization.Change
import MdxLocalization.Extract.SourceText
import MdxLocalization.Extract.Error
import MdxLocalization.Log.Event

/-!
# The body of a document

A survey of a document looks at the nodes that may hold text and yields a change for each block.

- Lists, list items, tables and rows yield nothing of their own; each child is surveyed as if it
  stood at top level.
- Paragraphs, headings and cells are written as one text, and yield a content change when they
  stand at top level.
- A directive yields a change for its label and content changes for the rest.
- Links have their address localised in place, which shows in the text of the block around them.
- Two elements yield a change for their title attribute; other elements and kinds yield nothing.

Surveying alters the tree, so it returns the node as it is afterwards, also when it fails: what
was surveyed before the failure stays changed.
-/

namespace MdxLocalization.Extract

/-- What a survey depends on. -/
structure Settings where
  source : Text
  locale : Text
  placeholder : Text

/-- What surveying something leaves behind. -/
structure Survey (α β : Type) where
  /-- The thing surveyed, as it is afterwards. -/
  after : α
  result : Except ExtractError β
  events : List LogEvent := []

/-- A part of a block: a change that a child yielded, or a stretch of children written as one text,
with the span from the first to the last of them. -/
inductive BlockItem where
  | change (change : Change)
  | stretch (text : Text) (span : Span)
  deriving Repr

/-- The stretch that is being collected. -/
structure Stretch where
  text : Text
  span : Span
  deriving Repr

/-- The stretch with a further child. -/
def extend (current : Option Stretch) (text : Text) (span : Span) : Stretch :=
  match current with
  | none => ⟨text, span⟩
  | some s => ⟨s.text ++ text, ⟨s.span.start, span.stop⟩⟩

/-- The finished stretch, if there is one. -/
def finish : Option Stretch → List BlockItem
  | none => []
  | some s => [.stretch s.text s.span]

/-- The changes of a block: those that its children yielded, and, where `withStretches` holds, one
for each stretch that is not empty in the source. -/
def changesOfItems (withStretches : Bool) (notes : Text) (items : List BlockItem) : List Change :=
  items.flatMap fun
    | .change c => [c]
    | .stretch text span =>
      if withStretches && span.start < span.stop then [{ kind := .content, text, span, notes }]
      else []

/-- The text of a child inside a block: without a final line break, and a code block on a line of
its own. -/
def childText (source : Text) (child : Node) : Text :=
  let text := Text.dropLineBreak (sourceText source child)
  if child.kind = .code then '\n' :: text else text

/-- The change for a title attribute, or the event that reports its absence. -/
def titleAttribute (info : NodeInfo) : List Change × List LogEvent :=
  let element := info.name.getD []
  let missing : List Change × List LogEvent :=
    ([], [⟨.error, .content, element ++ Text.ofString " 缺少 title 属性",
      [("element", .text element), ("attribute", .ofString "title")]⟩])
  match info.attributeNamed? (Text.ofString "title") with
  | none => missing
  | some a =>
    match a.valueSpan with
    | none => missing
    | some span =>
      if a.value.isEmpty then missing
      else
        ([{ kind := .title, text := a.value, span,
            notes := Text.ofString "'title' attribute for " ++ element }], [])

/-- Whether nodes of a kind may hold content. Such a node needs a span when it has children. -/
def mayHoldContent : NodeKind → Bool
  | .link | .jsxElement | .image | .list | .listItem | .table | .tableRow | .heading
  | .paragraph | .tableCell | .directive => true
  | _ => false

def directiveNotes (part : String) (info : NodeInfo) : Text :=
  Text.ofString part ++ Text.ofString " for the \"" ++ info.name.getD [] ++
    Text.ofString "\" callout"

/-- The change for the label of a directive, whose square brackets are not part of it. -/
def labelChange (source : Text) (info : NodeInfo) (span : Span) (children : List Node) : Change :=
  { kind := .directiveLabel
    text := Text.dropLineBreak (sourceTexts source children)
    span := ⟨span.start + 1, span.stop - 1⟩
    notes := directiveNotes "title" info }

mutual

/-- Surveys a node; `top` tells whether it stands at top level or as if it did. -/
def survey (s : Settings) (top : Bool) : Node → Survey Node (List Change)
  | .mk info children =>
    let same := Node.mk info children
    if !mayHoldContent info.kind then { after := same, result := .ok [] }
    else if !children.isEmpty && info.span.isNone then
      { after := same, result := .error (.missingPosition ⟨info.kind⟩) }
    else
      match info.kind with
      | .link =>
        match info.url with
        | none => { after := same, result := .ok [] }
        | some url =>
          match Url.localize s.locale s.placeholder url with
          | .ok url => { after := .mk { info with url := some url } children, result := .ok [] }
          | .error e => { after := same, result := .error (.url e) }
      | .jsxElement =>
        if info.name = some (Text.ofString "RelativeLink") then
          let (changes, events) := titleAttribute info
          { after := same, result := .ok changes, events }
        else if info.name = some (Text.ofString "AccordionItem") then
          let (changes, events) := titleAttribute info
          let rest := surveyAll s true children
          { after := .mk info rest.after, result := rest.result.map (changes ++ ·),
            events := events ++ rest.events }
        else { after := same, result := .ok [] }
      | .list | .listItem | .table | .tableRow =>
        let inner := surveyAll s true children
        { after := .mk info inner.after, result := inner.result, events := inner.events }
      | .heading | .paragraph | .tableCell =>
        let inner := surveyBlock s none children
        { after := .mk info inner.after, result := inner.result.map (changesOfItems top []),
          events := inner.events }
      | .directive =>
        let inner := surveyDirective s info children
        { after := .mk info inner.after, result := inner.result, events := inner.events }
      | _ => { after := same, result := .ok [] }

/-- Surveys nodes in order and stops at the first failure. -/
def surveyAll (s : Settings) (top : Bool) : List Node → Survey (List Node) (List Change)
  | [] => { after := [], result := .ok [] }
  | node :: rest =>
    let first := survey s top node
    match first.result with
    | .error e => { after := first.after :: rest, result := .error e, events := first.events }
    | .ok changes =>
      let others := surveyAll s top rest
      { after := first.after :: others.after, result := others.result.map (changes ++ ·),
        events := first.events ++ others.events }

/-- Surveys the children of a block and collects their texts. A child that yields changes, and any
list, ends the stretch before it and is not written itself. -/
def surveyBlock (s : Settings) (current : Option Stretch) :
    List Node → Survey (List Node) (List BlockItem)
  | [] => { after := [], result := .ok (finish current) }
  | node :: rest =>
    let first := survey s false node
    match first.result with
    | .error e => { after := first.after :: rest, result := .error e, events := first.events }
    | .ok changes =>
      if !changes.isEmpty || first.after.kind = .list then
        let others := surveyBlock s none rest
        { after := first.after :: others.after,
          result := others.result.map (finish current ++ changes.map .change ++ ·),
          events := first.events ++ others.events }
      else
        match first.after.info.spanOrFail with
        | .error e =>
          { after := first.after :: rest, result := .error (.missingPosition e),
            events := first.events }
        | .ok span =>
          let others :=
            surveyBlock s (some (extend current (childText s.source first.after) span)) rest
          { after := first.after :: others.after, result := others.result,
            events := first.events ++ others.events }

/-- Surveys the children of a directive: the label, which is then removed, and the body. -/
def surveyDirective (s : Settings) (info : NodeInfo) :
    List Node → Survey (List Node) (List Change)
  | [] => { after := [], result := .ok [] }
  | .mk label inner :: rest =>
    if label.flag "directiveLabel" then
      match label.spanOrFail with
      | .error e =>
        { after := .mk label inner :: rest, result := .error (.missingPosition e) }
      | .ok span =>
        let surveyed := surveyAll s false inner
        match surveyed.result with
        | .error e =>
          { after := .mk label surveyed.after :: rest, result := .error e,
            events := surveyed.events }
        | .ok _ =>
          let change := labelChange s.source info span surveyed.after
          let body := surveyBlock s none rest
          { after := body.after
            result := body.result.map fun items =>
              change :: changesOfItems true (directiveNotes "content" info) items
            events := surveyed.events ++ body.events }
    else
      let body := surveyBlock s none (.mk label inner :: rest)
      { after := body.after
        result := body.result.map (changesOfItems true (directiveNotes "content" info))
        events := body.events }

end

def isTopLevelKind : NodeKind → Bool
  | .directive | .heading | .image | .list | .jsxElement | .paragraph | .table => true
  | _ => false

/-- Surveys the top-level nodes in order. -/
def surveyTopLevel (s : Settings) : List Node → Survey (List Node) (List Change)
  | [] => { after := [], result := .ok [] }
  | node :: rest =>
    if isTopLevelKind node.kind then
      let announce : LogEvent :=
        ⟨.debug, .content, Text.ofString "解析顶层节点", [("node_type", .text node.kind.name)]⟩
      let first := survey s true node
      match first.result with
      | .error e =>
        { after := first.after :: rest, result := .error e, events := announce :: first.events }
      | .ok changes =>
        let others := surveyTopLevel s rest
        { after := first.after :: others.after, result := others.result.map (changes ++ ·),
          events := announce :: first.events ++ others.events }
    else
      let others := surveyTopLevel s rest
      { others with after := node :: others.after }

/-- Surveys a document. -/
def surveyDocument (s : Settings) (root : Node) : Survey Node (List Change) :=
  let inner := surveyTopLevel s root.children
  let summary :=
    match inner.result with
    | .ok changes =>
      [⟨.info, .content, Text.ofString "正文解析完成", [("count", .ofNat changes.length)]⟩]
    | .error _ => []
  { after := .mk root.info inner.after, result := inner.result, events := inner.events ++ summary }

end MdxLocalization.Extract
