import MdxLocalization.Text.Blank

/-!
# Raw HTML

The pieces of raw HTML that Markdown lets through: opening and closing tags, comments, processing
instructions, declarations and character data sections. Each recogniser looks at the start of a
text and gives what follows the piece.
-/

namespace MdxLocalization.Markdown.HtmlTag

/-- A letter, digit or hyphen of a tag name. -/
def isNameRest (c : Char) : Bool := c.isAlphanum || c == '-'

def isAttributeStart (c : Char) : Bool := c.isAlpha || c == '_' || c == ':'

/-- A character that may continue an attribute name. -/
def isAttributeRest (c : Char) : Bool :=
  c.isAlphanum || c == ':' || c == '.' || c == '_' || c == '-'

/-- A character of an attribute value without quotes. -/
def isUnquoted (c : Char) : Bool :=
  32 < c.toNat && !(c == '"' || c == '\'' || c == '=' || c == '<' || c == '>' || c == '\x60')

def afterPiece? (piece t : Text) : Option Text :=
  (Text.find? piece t).map fun n => t.drop (n + piece.length)

/-- The text after the end of an opening tag: white space, an optional slash and the bracket. -/
def afterTagEnd? (t : Text) : Option Text :=
  match t.dropWhile Text.isBlank with
  | '/' :: '>' :: rest => some rest
  | '>' :: rest => some rest
  | _ => none

/-- The lengths that a value without quotes may have: all of it, or up to white space in it. -/
def unquotedLengths (value : Text) : List Nat :=
  (List.range (value.length + 1)).reverse.filter fun n =>
    0 < n && (n = value.length || ((value[n]?).map Text.isBlank).getD false)

/-- The text after the attributes and the end of an opening tag. The budget bounds the number of
attributes. -/
def afterAttributes? : Nat → Text → Option Text
  | 0, _ => none
  | budget + 1, t =>
    let body := t.dropWhile Text.isBlank
    let attempt : Option Text :=
      match body with
      | [] => none
      | c :: rest =>
        if body.length < t.length && isAttributeStart c then
          let tail := rest.dropWhile isAttributeRest
          let valued : Option Text :=
            match tail.dropWhile Text.isBlank with
            | '=' :: value =>
              match value.dropWhile Text.isBlank with
              | '"' :: inner => (afterPiece? ['"'] inner).bind (afterAttributes? budget)
              | '\'' :: inner => (afterPiece? ['\''] inner).bind (afterAttributes? budget)
              | start =>
                (unquotedLengths (start.takeWhile isUnquoted)).findSome? fun n =>
                  afterAttributes? budget (start.drop n)
            | _ => none
          valued <|> afterAttributes? budget tail
        else none
    attempt <|> afterTagEnd? t

/-- The text after an opening tag. -/
def afterOpenTag? : Text → Option Text
  | '<' :: c :: rest =>
    if c.isAlpha then
      let tail := rest.dropWhile isNameRest
      afterAttributes? (tail.length + 1) tail
    else none
  | _ => none

/-- The text after a closing tag. -/
def afterCloseTag? : Text → Option Text
  | '<' :: '/' :: c :: rest =>
    if c.isAlpha then
      match (rest.dropWhile isNameRest).dropWhile Text.isBlank with
      | '>' :: tail => some tail
      | _ => none
    else none
  | _ => none

/-- The text after the inside and the end of a comment. Two hyphens take the character after them
along unless it ends the comment. -/
def afterCommentBody? : Text → Option Text
  | [] => none
  | '-' :: '-' :: '>' :: rest => some rest
  | '-' :: '-' :: _ :: rest => afterCommentBody? rest
  | ['-', '-'] => none
  | '-' :: _ :: rest => afterCommentBody? rest
  | ['-'] => none
  | _ :: rest => afterCommentBody? rest

def afterComment? : Text → Option Text
  | '<' :: '!' :: '-' :: '-' :: '>' :: rest => some rest
  | '<' :: '!' :: '-' :: '-' :: '-' :: '>' :: rest => some rest
  | '<' :: '!' :: '-' :: '-' :: rest => afterCommentBody? rest
  | _ => none

/-- The text after a processing instruction, a declaration or a character data section. -/
def afterMarkup? : Text → Option Text
  | '<' :: '?' :: rest => afterPiece? ['?', '>'] rest
  | '<' :: '!' :: '[' :: 'C' :: 'D' :: 'A' :: 'T' :: 'A' :: '[' :: rest =>
    afterPiece? [']', ']', '>'] rest
  | '<' :: '!' :: c :: rest => if c.isAlpha then afterPiece? ['>'] rest else none
  | _ => none

/-- The length of the piece of raw HTML that starts a text. -/
def length? (t : Text) : Option Nat :=
  (afterOpenTag? t <|> afterCloseTag? t <|> afterComment? t <|> afterMarkup? t).map fun rest =>
    t.length - rest.length

/-- Whether a line is a complete opening or closing tag and white space. -/
def isTagLine (t : Text) : Bool :=
  match afterOpenTag? t <|> afterCloseTag? t with
  | some rest => Text.isBlankText rest
  | none => false

/-- The elements that start a block of their own. -/
def blockNames : List String :=
  ["address", "article", "aside", "base", "basefont", "blockquote", "body", "caption", "center",
    "col", "colgroup", "dd", "details", "dialog", "dir", "div", "dl", "dt", "fieldset",
    "figcaption", "figure", "footer", "form", "frame", "frameset", "h1", "h2", "h3", "h4", "h5",
    "h6", "head", "header", "hr", "html", "iframe", "legend", "li", "link", "main", "menu",
    "menuitem", "nav", "noframes", "ol", "optgroup", "option", "p", "param", "search", "section",
    "summary", "table", "tbody", "td", "tfoot", "th", "thead", "title", "tr", "track", "ul"]

/-- The elements whose content is taken literally. -/
def literalNames : List String := ["script", "pre", "style", "textarea"]

/-- The form of a letter of a name in which case is ignored: four letters outside ASCII count as the
ASCII letters whose case variants they are. -/
def foldLetter (c : Char) : Char :=
  if c.toNat = 0x130 || c.toNat = 0x131 then 'i'
  else if c.toNat = 0x17F then 's'
  else if c.toNat = 0x212A then 'k'
  else c.toLower

/-- The text after a name at the start, case ignored. -/
def afterName? (name : String) (t : Text) : Option Text :=
  let name := Text.ofString name
  if (t.take name.length).map foldLetter = name then some (t.drop name.length) else none

/-- The kinds of HTML blocks, by what ends them. -/
inductive BlockKind where
  | literal
  | comment
  | instruction
  | declaration
  | data
  | element
  | anyTag
  deriving DecidableEq, Repr

/-- The kind of the HTML block that a line starts. -/
def blockKind? (t : Text) : Option BlockKind :=
  let endsName := fun (slash : Bool) (rest : Text) =>
    match rest with
    | [] => true
    | '/' :: '>' :: _ => slash
    | c :: _ => Text.isBlank c || c == '>'
  match t with
  | '<' :: rest =>
    let isLiteral := literalNames.any fun n => ((afterName? n rest).map (endsName false)).getD false
    let name :=
      match rest with
      | '/' :: rest => rest
      | _ => rest
    let isElement := blockNames.any fun n => ((afterName? n name).map (endsName true)).getD false
    if isLiteral then some .literal
    else if Text.startsWith rest ['!', '-', '-'] then some .comment
    else if Text.startsWith rest ['?'] then some .instruction
    else if Text.startsWith rest ['!'] && ((rest.drop 1).take 1).any Char.isUpper then
      some .declaration
    else if Text.startsWith rest (Text.ofString "![CDATA[") then some .data
    else if isElement then some .element
    else if isTagLine t then some .anyTag
    else none
  | _ => none

def occurs (piece t : Text) : Bool := (Text.find? piece t).isSome

/-- Whether the closing tag of an element with literal content occurs in a text. -/
def hasLiteralEnd : Text → Bool
  | [] => false
  | c :: rest =>
    (match c, rest with
      | '<', '/' :: tail =>
        literalNames.any fun name =>
          match afterName? name tail with
          | some ('>' :: _) => true
          | _ => false
      | _, _ => false) || hasLiteralEnd rest

/-- Whether a line ends an HTML block of a kind. -/
def endsBlock (kind : BlockKind) (t : Text) : Bool :=
  match kind with
  | .literal => hasLiteralEnd t
  | .comment => occurs ['-', '-', '>'] t
  | .instruction => occurs ['?', '>'] t
  | .declaration => occurs ['>'] t
  | .data => occurs [']', ']', '>'] t
  | .element | .anyTag => t.isEmpty

def mayInterrupt (kind : BlockKind) : Bool := kind != .anyTag

end MdxLocalization.Markdown.HtmlTag
