import MdxLocalization.Markdown.Phrasing
import MdxLocalization.Text.Blank

/-!
# Pages from blocks

A page is written from blocks in two steps. Blocks become markup, a sequence of tags and contents;
then the sequence is written, where line breaks between tags depend on the neighbours. The tags of a
tight paragraph are hidden: they are not written, but count as neighbours.
-/

namespace MdxLocalization.Page

open Markdown (Block Phrase Reference)

/-- A text in which no character has a meaning in HTML. -/
def escape (t : Text) : Text :=
  t.flatMap fun c =>
    match c with
    | '&' => Text.ofString "&amp;"
    | '<' => Text.ofString "&lt;"
    | '>' => Text.ofString "&gt;"
    | '"' => Text.ofString "&quot;"
    | c => [c]

/-- Attributes of a tag in order. -/
abbrev Attributes := List (String × Text)

def writeAttributes (attributes : Attributes) : Text :=
  attributes.flatMap fun (name, value) =>
    ' ' :: Text.ofString name ++ ['=', '"'] ++ escape value ++ ['"']

/-- A part of a page. -/
inductive Markup where
  | start (tag : String) (attributes : Attributes) (hidden : Bool)
  | finish (tag : String) (hidden : Bool)
  | rule
  /-- Something that is not written. -/
  | nothing
  /-- The written phrases of a block. -/
  | phrases (t : Text)
  | raw (t : Text)
  deriving Inhabited

namespace Markup

/-- Whether a part is hidden. -/
def isHidden : Markup → Bool
  | .start _ _ hidden => hidden
  | .finish _ hidden => hidden
  | .nothing => true
  | _ => false

/-- Whether the line goes on after a starting tag, given the part that follows. -/
def continuesLine (tag : String) : Option Markup → Bool
  | some (.phrases _) => true
  | some (.finish closing hidden) => hidden || closing == tag
  | some m => m.isHidden
  | none => false

/-- The written form of a part between its neighbours. -/
def write (previous : Option Markup) (m : Markup) (next : Option Markup) : Text :=
  let gap := if previous.any isHidden then ['\n'] else []
  match m with
  | .start tag attributes hidden =>
    if hidden then []
    else
      gap ++ '<' :: Text.ofString tag ++ writeAttributes attributes ++
        (if continuesLine tag next then ['>'] else ['>', '\n'])
  | .finish tag hidden => if hidden then [] else '<' :: '/' :: Text.ofString tag ++ ['>', '\n']
  | .rule => gap ++ Text.ofString "<hr />\n"
  | .nothing => []
  | .phrases t => t
  | .raw t => t

/-- The written form of a sequence. -/
def writeAll (previous : Option Markup) : List Markup → Text
  | [] => []
  | m :: rest => write previous m rest.head? ++ writeAll (some m) rest

end Markup

def emphasisTag (strong : Bool) : String := if strong then "strong" else "em"

mutual

def labelText : List Phrase → Text
  | [] => []
  | phrase :: rest => phraseLabelText phrase ++ labelText rest

/-- The text of a phrase in the label of an image. -/
def phraseLabelText : Phrase → Text
  | .text t => t
  | .html t => t
  | .softBreak => ['\n']
  | .hardBreak => ['\n']
  | .image _ _ children => labelText children
  | .link _ _ children => labelText children
  | _ => []

end

/-- The title of a link or image as an attribute, when it has one. -/
def titleAttribute (title : Text) : Attributes := if title.isEmpty then [] else [("title", title)]

mutual

/-- The written form of phrases; `adapt` is applied to raw HTML. -/
def writePhrases (adapt : Text → Text) : List Phrase → Text
  | [] => []
  | phrase :: rest => writePhrase adapt phrase ++ writePhrases adapt rest

/-- The written form of a phrase. -/
def writePhrase (adapt : Text → Text) : Phrase → Text
  | .text t => escape t
  | .escaped t => escape t
  | .softBreak => ['\n']
  | .hardBreak => Text.ofString "<br />\n"
  | .code t => Text.ofString "<code>" ++ escape t ++ Text.ofString "</code>"
  | .html t => adapt t
  | .emphasisStart strong => '<' :: Text.ofString (emphasisTag strong) ++ ['>']
  | .emphasisEnd strong => '<' :: '/' :: Text.ofString (emphasisTag strong) ++ ['>']
  | .link url title children =>
    Text.ofString "<a" ++ writeAttributes (("href", url) :: titleAttribute title) ++ ['>'] ++
      writePhrases adapt children ++ Text.ofString "</a>"
  | .image url title children =>
    Text.ofString "<img" ++
      writeAttributes (("src", url) :: ("alt", labelText children) :: titleAttribute title) ++
      Text.ofString " />"

end

/-- How blocks become markup. -/
structure Style where
  references : List Reference
  /-- What raw HTML becomes. -/
  adapt : Text → Text
  /-- Whether a paragraph at top level is left out, by its content. -/
  omits : Text → Bool

/-- The phrases of a text, written. -/
def Style.write (s : Style) (t : Text) : Text :=
  writePhrases s.adapt (Markdown.phrases s.references t)

def cellAttributes : Markdown.Alignment → Attributes
  | .none => []
  | .left => [("style", Text.ofString "text-align:left")]
  | .center => [("style", Text.ofString "text-align:center")]
  | .right => [("style", Text.ofString "text-align:right")]

def enclose (tag : String) (attributes : Attributes) (inner : List Markup) : List Markup :=
  .start tag attributes false :: inner ++ [.finish tag false]

def rowMarkup (s : Style) (tag : String) (alignments : List Markdown.Alignment)
    (cells : List Text) : List Markup :=
  enclose "tr" [] ((alignments.zip cells).flatMap fun (alignment, cell) =>
    enclose tag (cellAttributes alignment) [.phrases (s.write cell)])

/-- A block of code, with the language that its info names. -/
def codeMarkup (info content : Text) : Markup :=
  let language := (Text.words (Markdown.Entity.unescape info)).head?
  let attributes : Attributes :=
    match language with
    | some name => [("class", Text.ofString "language-" ++ name)]
    | none => []
  .raw (Text.ofString "<pre><code" ++ writeAttributes attributes ++ ['>'] ++ escape content ++
    Text.ofString "</code></pre>\n")

def headingTag (depth : Nat) : String := "h" ++ toString depth

mutual

/-- The markup of a block; `outermost` tells whether it stands at top level. -/
def blockMarkup (s : Style) (outermost : Bool) : Block → List Markup
  | .frontMatter _ => [.nothing]
  | .heading _ _ depth _ content => enclose (headingTag depth) [] [.phrases (s.write content)]
  | .paragraph _ tight content =>
    if outermost && s.omits content then
      [.start "p" [] true, .phrases [], .finish "p" true]
    else [.start "p" [] tight, .phrases (s.write content), .finish "p" tight]
  | .indentedCode _ content => [codeMarkup [] content]
  | .fencedCode _ info content => [codeMarkup info content]
  | .html _ content => [.raw (s.adapt content)]
  | .thematicBreak _ => [.rule]
  | .blockquote _ children => enclose "blockquote" [] (markup s false children)
  | .list _ start items =>
    match start with
    | none => enclose "ul" [] (markup s false items)
    | some n =>
      enclose "ol" (if n = 1 then [] else [("start", Text.ofNat n)]) (markup s false items)
  | .item _ children => enclose "li" [] (markup s false children)
  | .table _ alignments header rows =>
    enclose "table" [] (
      enclose "thead" [] (rowMarkup s "th" alignments header.cells) ++
      (if rows.isEmpty then []
       else enclose "tbody" []
        (rows.flatMap fun row => rowMarkup s "td" alignments row.cells)))
  | .directive _ _ children =>
    enclose "div" [("class", Text.ofString "directive")] (markup s false children)
  | .definition _ _ _ => []

def markup (s : Style) (outermost : Bool) : List Block → List Markup
  | [] => []
  | block :: rest => blockMarkup s outermost block ++ markup s outermost rest

end

mutual

/-- The definitions in a block. -/
def blockReferences : Block → List Reference
  | .definition label url title => [⟨label, url, title⟩]
  | .blockquote _ children => references children
  | .list _ _ items => references items
  | .item _ children => references children
  | .directive _ _ children => references children
  | _ => []

/-- The definitions in blocks in order. -/
def references : List Block → List Reference
  | [] => []
  | block :: rest => blockReferences block ++ references rest

end

end MdxLocalization.Page
