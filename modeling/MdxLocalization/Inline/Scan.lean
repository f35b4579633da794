import MdxLocalization.Inline.Link
import MdxLocalization.ParseError
import MdxLocalization.Tree.Json

/-!
# Inline content

`scan` cuts a region of text into links, images, code spans and the texts between them. Emphasis
and other marks stay part of the texts. The nodes tile the region: each starts where the one before
it ends. The label of a link is scanned in turn and becomes its children; an image keeps its label
as a value.

Only the region matters, and its offset is only added to the positions, so scanning commutes with
moving the text.
-/

namespace MdxLocalization.Inline

/-- The ASCII punctuation characters, which a backslash escapes. -/
def isEscapable (c : Char) : Bool :=
  let n := c.toNat
  (33 ≤ n && n ≤ 47) || (58 ≤ n && n ≤ 64) || (91 ≤ n && n ≤ 96) || (123 ≤ n && n ≤ 126)

/-- The text node of the characters read since the last construct, which are given in reverse and
end at `position`; nothing when there are none. -/
def flush (position : Nat) (pending : Text) : List Node :=
  if pending.isEmpty then []
  else
    [.mk { kind := .text, value := some pending.reverse,
           span := some (Span.ofNats (position - pending.length) position) } []]

/-- The place of the address of a link that starts at `position`, as a data field. -/
def urlSpanField (position : Nat) (parts : LinkSyntax) : Text × Json :=
  (Text.ofString "url_span",
    (Span.ofNats (position + parts.urlStart) (position + parts.urlStop)).toJson)

/-- The image whose exclamation mark stands at `position`. -/
def imageNode (position : Nat) (label : Text) (parts : LinkSyntax) : Node :=
  .mk { kind := .image, url := some parts.url, title := parts.title, value := some label,
        span := some (Span.ofNats position (position + 1 + parts.length)),
        data := [urlSpanField (position + 1) parts] } []

/-- The facts of the link that starts at `position`. -/
def linkInfo (position : Nat) (parts : LinkSyntax) : NodeInfo :=
  { kind := .link, url := some parts.url, title := parts.title,
    span := some (Span.ofNats position (position + parts.length)),
    data := [urlSpanField position parts, (Text.ofString "angle", .bool parts.angle)] }

/-- The code span that starts at `position`. -/
def codeNode (position : Nat) (value : Text) (length : Nat) : Node :=
  .mk { kind := .inlineCode, value := some value,
        span := some (Span.ofNats position (position + length)) } []

/-- Scans a text that stands at `position`; `pending` holds, in reverse, the plain characters
directly before it. -/
def scanFrom (position : Nat) (pending : Text) : Text → List Node
  | [] => flush position pending
  | c :: rest =>
    if c = '\\' then
      match rest with
      | [] => scanFrom (position + 1) ('\\' :: pending) []
      | d :: tail =>
        if isEscapable d then scanFrom (position + 2) (d :: '\\' :: pending) tail
        else scanFrom (position + 1) ('\\' :: pending) (d :: tail)
    else if c = tick then
      match codeSpan? (c :: rest) with
      | some (value, length) =>
        flush position pending ++ codeNode position value length ::
          scanFrom (position + length) [] (rest.drop (length - 1))
      | none =>
        let run := Text.countWhile (· == tick) rest
        scanFrom (position + 1 + run) (List.replicate (run + 1) tick ++ pending) (rest.drop run)
    else if c = '!' then
      match (if Text.startsWith rest ['['] then link? rest else none) with
      | some parts =>
        flush position pending ++ imageNode position (rest.tail.take parts.labelLength) parts ::
          scanFrom (position + 1 + parts.length) [] (rest.drop parts.length)
      | none => scanFrom (position + 1) ('!' :: pending) rest
    else if c = '[' then
      match link? (c :: rest) with
      | some parts =>
        flush position pending ++
          .mk (linkInfo position parts)
            (scanFrom (position + 1) [] (rest.take parts.labelLength)) ::
          scanFrom (position + parts.length) [] (rest.drop (parts.length - 1))
      | none => scanFrom (position + 1) ('[' :: pending) rest
    else scanFrom (position + 1) (c :: pending) rest
  termination_by t => t.length
  decreasing_by all_goals simp_all <;> omega

/-- Scans the region `start ≤ i < stop` of a source. A region that ends past the text cannot be
scanned. -/
def scan (source : Text) (start stop : Nat) : Except ParseError (List Node) :=
  if start < stop && source.length < stop then .error .regionPastEnd
  else .ok (scanFrom start [] (Text.slice source start stop))

end MdxLocalization.Inline
