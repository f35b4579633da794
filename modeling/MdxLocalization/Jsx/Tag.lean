import MdxLocalization.ParseError
import MdxLocalization.Text.Blank
import MdxLocalization.Text.Word
import MdxLocalization.Tree.Node

/-!
# JSX tags

An opening or self-closing tag has a name that starts with a capital letter, then attributes and
spread items in braces. An attribute is bare, has a quoted value, or has an expression in braces;
only a quoted value has a span of its own, because only it is literal text.

The scanner works on the rest of a region. Since the region ends at a known offset, the offset of
any rest follows from its length.
-/

namespace MdxLocalization

/-- An opening or self-closing tag. -/
structure JsxTag where
  name : Text
  span : Span
  selfClosing : Bool
  attributes : List JsxAttribute
  deriving Repr, DecidableEq

namespace Jsx

/-- The outcome of scanning for something at the start of a region. -/
inductive Outcome (α : Type) where
  | found (result : α)
  /-- What stands here is something else. -/
  | refused
  /-- The region ended where a character was looked for. -/
  | exhausted

def isAttributeStart (c : Char) : Bool := c.isAlpha || c == '_' || c == ':'

/-- Whether a character may continue the name of an attribute. -/
def isAttributeRest (c : Char) : Bool := Text.isWord c || c == ':' || c == '.' || c == '-'

/-- Whether a character may continue the name of an element. -/
def isNameRest (c : Char) : Bool := Text.isWord c || c == '.'

/-- The name of the element whose tag starts a text. -/
def tagName? : Text → Option Text
  | '<' :: c :: rest => if c.isUpper then some (c :: rest.takeWhile isNameRest) else none
  | _ => none

/-- The text after a balanced group of braces, which starts at the first brace. Quoted texts are
skipped; `depth` counts the open braces, and `quote` is the quote that is open. -/
def afterBraces (depth : Nat) (quote : Option Char) : Text → Outcome Text
  | [] => if quote.isSome then .refused else .exhausted
  | c :: rest =>
    match quote with
    | some q => afterBraces depth (if c = q then none else some q) rest
    | none =>
      if c = '"' || c = '\'' || c = '\x60' then afterBraces depth (some c) rest
      else if c = '\x7b' then afterBraces (depth + 1) none rest
      else if c = '\x7d' then
        if depth = 1 then .found rest else afterBraces (depth - 1) none rest
      else afterBraces depth none rest

/-- Reads the attribute that starts a region up to offset `stop`, and gives the text after it. -/
def readAttribute (stop : Nat) (t : Text) : Outcome (JsxAttribute × Text) :=
  match t with
  | [] => .exhausted
  | c :: rest =>
    if isAttributeStart c then
      let name := c :: rest.takeWhile isAttributeRest
      let offset := fun (t : Text) => stop - t.length
      let make := fun (value : Text) (valueSpan : Option Span) (rest : Text) =>
        let span := some (Span.ofNats (offset t) (offset rest))
        Outcome.found (JsxAttribute.mk name value span valueSpan, rest)
      match rest.dropWhile isAttributeRest with
      | [] => .exhausted
      | '=' :: [] => .exhausted
      | '=' :: quote :: body =>
        if quote = '"' || quote = '\'' then
          match Text.findChar? (· == quote) body with
          | none => .refused
          | some length =>
            make (body.take length)
              (some (Span.ofNats (offset body) (offset body + length))) (body.drop (length + 1))
        else if quote = '\x7b' then
          match afterBraces 0 none (quote :: body) with
          | .found rest =>
            make ((quote :: body).take (body.length + 1 - rest.length)) none rest
          | .refused => .refused
          | .exhausted => .exhausted
        else .refused
      | rest => make [] none rest
    else .refused

/-- Reads the rest of a tag after its name. `following` is the character after the region; the
slash that ends a self-closing tag may be the last character of the region. The budget bounds the
number of attributes. -/
def tagBody (following : Option Char) (start stop : Nat) (name : Text) :
    Nat → List JsxAttribute → Text → Outcome JsxTag
  | 0, _, _ => .refused
  | budget + 1, attributes, t =>
    let t := t.dropWhile Text.isBlank
    let close := fun (length : Nat) (selfClosing : Bool) =>
      Outcome.found
        { name, span := Span.ofNats start (stop - t.length + length), selfClosing,
          attributes := attributes.reverse : JsxTag }
    match t with
    | [] => .exhausted
    | '/' :: '>' :: _ => close 2 true
    | ['/'] => if following = some '>' then close 2 true else .refused
    | '>' :: _ => close 1 false
    | '\x7b' :: _ =>
      match afterBraces 0 none t with
      | .found rest => tagBody following start stop name budget attributes rest
      | .refused => .refused
      | .exhausted => .exhausted
    | _ =>
      match readAttribute stop t with
      | .found (a, rest) => tagBody following start stop name budget (a :: attributes) rest
      | .refused => .refused
      | .exhausted => .exhausted

/-- Scans for a tag at the start of the region `start ≤ i < stop`. -/
def readRegion (source : Text) (start stop : Nat) : Outcome JsxTag :=
  let region := Text.slice source start stop
  match tagName? region with
  | none => .refused
  | some name =>
    tagBody source[stop]? start (start + region.length) name (region.length + 1) []
      (region.drop (name.length + 1))

/-- The tag at the start of the region `start ≤ i < stop`. -/
def readTag? (source : Text) (start stop : Nat) : Option JsxTag :=
  match readRegion source start stop with
  | .found tag => some tag
  | .refused | .exhausted => none

/-- Scans for a tag in a region that may reach past the text; running into the end of the text is
then an error. -/
def readTagWithin (source : Text) (start stop : Nat) : Except ParseError (Option JsxTag) :=
  match readRegion source start stop with
  | .found tag => .ok (some tag)
  | .refused => .ok none
  | .exhausted => if source.length < stop then .error .regionPastEnd else .ok none

/-- The length of the closing tag of an element that starts a text. White space may surround the
name, and may also begin it. -/
def closingTagLength? (name t : Text) : Option Nat :=
  match t with
  | '<' :: '/' :: rest =>
    let blanks := Text.countWhile Text.isBlank rest
    (List.range (blanks + 1)).reverse.findSome? fun skipped =>
      let inner := rest.drop skipped
      if Text.startsWith inner name then
        match (inner.drop name.length).dropWhile Text.isBlank with
        | '>' :: tail => some (t.length - tail.length)
        | _ => none
      else none
  | _ => none

/-- The first closing tag of an element in a text that stands at `offset`. -/
def findClosingTag? (name : Text) (offset : Nat) : Text → Option (Nat × Nat)
  | [] => none
  | c :: rest =>
    match closingTagLength? name (c :: rest) with
    | some length => some (offset, offset + length)
    | none => findClosingTag? name (offset + 1) rest

/-- All closing tags of an element in a text that stands at `offset`; a positive `skip` is the
number of characters that still belong to the tag found last. -/
def closingTags (name : Text) (offset skip : Nat) : Text → List (Nat × Nat)
  | [] => []
  | c :: rest =>
    if 0 < skip then closingTags name (offset + 1) (skip - 1) rest
    else
      match closingTagLength? name (c :: rest) with
      | some length => (offset, offset + length) :: closingTags name (offset + 1) (length - 1) rest
      | none => closingTags name (offset + 1) 0 rest

end Jsx

end MdxLocalization
