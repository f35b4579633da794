import MdxLocalization.Text.Blank
import MdxLocalization.Text.Quoted

/-!
# Console markup

Console markup is text with tags in square brackets that open and close a style. A tag starts with a
small letter, a slash, a number sign or an at sign, and holds no opening bracket. Backslashes before
a tag escape it: two stand for one, and an odd one makes the tag plain text. A tag with a slash
closes the last open style, or the last one of its name; closing what is not open is an error.

Only the plain text of markup is of interest here. Some control characters are never shown.
-/

namespace MdxLocalization.Console

/-- A closing tag that closes nothing. -/
structure MarkupError where
  /-- The tag with its brackets. -/
  tag : Text
  position : Nat
  /-- Whether the tag names the style that it closes. -/
  named : Bool
  deriving DecidableEq, Repr

def MarkupError.message (e : MarkupError) : Text :=
  let place := fun reason => Text.ofString "' at position " ++ Text.ofNat e.position ++
    Text.ofString reason
  if e.named then
    Text.ofString "closing tag '" ++ e.tag ++ place " doesn't match any open tag"
  else Text.ofString "closing tag '[/]" ++ place " has nothing to close"

/-- Whether a control character is never shown. -/
def isHidden (c : Char) : Bool :=
  let n := c.toNat
  n = 7 || n = 8 || n = 11 || n = 12 || n = 13

/-- A text without the control characters that are never shown. -/
def visible (t : Text) : Text := t.filter fun c => !isHidden c

def startsTag (c : Char) : Bool := c.isLower || c == '/' || c == '#' || c == '@'

def tag? : Text → Option Text
  | '[' :: c :: rest =>
    let inner := rest.takeWhile fun d => d != '[' && d != ']'
    if startsTag c && (rest.drop inner.length).head? == some ']' then some (c :: inner) else none
  | _ => none

def escapeTags (backslashes : Nat) : Text → Text
  | [] => List.replicate backslashes '\\'
  | '\\' :: rest => escapeTags (backslashes + 1) rest
  | c :: rest =>
    let count := if (tag? (c :: rest)).isSome then 2 * backslashes + 1 else backslashes
    List.replicate count '\\' ++ c :: escapeTags 0 rest

/-- Markup that shows a text as it is. A single backslash at the end is doubled, so that it does not
escape what is put after it. -/
def escape (t : Text) : Text :=
  let escaped := escapeTags 0 t
  let single := (escaped.reverse.takeWhile (· == '\\')).length = 1
  if single then escaped ++ ['\\'] else escaped

/-- A piece of markup. -/
inductive Piece where
  | plain (t : Text)
  /-- The inner text of a tag, and its position. -/
  | tag (inner : Text) (position : Nat)
  deriving DecidableEq, Repr

/-- A text in which escaped opening brackets stand for themselves. -/
def unescapeBrackets : Text → Text
  | [] => []
  | '\\' :: '[' :: rest => '[' :: unescapeBrackets rest
  | c :: rest => c :: unescapeBrackets rest

/-- A piece of plain text, unless it is empty. -/
def plainPiece (t : Text) : List Piece := if t.isEmpty then [] else [.plain (unescapeBrackets t)]

/-- Takes markup apart. Plain text and backslashes that were passed are held in reverse order, and a
positive `skip` is the number of characters that still belong to the last tag. -/
def pieces (plain : Text) (backslashes position skip : Nat) : Text → List Piece
  | [] => plainPiece (List.replicate backslashes '\\' ++ plain).reverse
  | c :: rest =>
    match skip with
    | skip + 1 => pieces plain backslashes (position + 1) skip rest
    | 0 =>
      if c = '\\' then pieces plain (backslashes + 1) (position + 1) 0 rest
      else
        match tag? (c :: rest) with
        | some inner =>
          let literal := plainPiece plain.reverse ++
            plainPiece (List.replicate (backslashes / 2) '\\')
          let found :=
            if backslashes % 2 = 1 then plainPiece ('[' :: inner ++ [']'])
            else [.tag inner position]
          literal ++ found ++ pieces [] 0 (position + 1) (inner.length + 1) rest
        | none =>
          pieces (c :: (List.replicate backslashes '\\' ++ plain)) 0 (position + 1) 0 rest

def styleName (t : Text) : Text := Text.join [' '] (Text.words (t.map Char.toLower))

/-- The name of a tag, before an equals sign. -/
def tagName (inner : Text) : Text := inner.takeWhile (· != '=')

/-- The plain text of some pieces, with the styles that are open, the last one first. -/
def plainOf (styles : List Text) : List Piece → Except MarkupError Text
  | [] => .ok []
  | .plain t :: rest => (plainOf styles rest).map (t ++ ·)
  | .tag inner position :: rest =>
    match tagName inner with
    | '/' :: name =>
      let style := Text.trim name
      if style.isEmpty then
        match styles with
        | [] => .error ⟨[], position, false⟩
        | _ :: styles => plainOf styles rest
      else if styles.contains (styleName style) then
        plainOf (styles.erase (styleName style)) rest
      else .error ⟨'[' :: inner ++ [']'], position, true⟩
    | name => plainOf (styleName name :: styles) rest

/-- The plain text of markup. Without a bracket there are no tags, and no escapes either. -/
def plain (markup : Text) : Except MarkupError Text :=
  if markup.contains '[' then (plainOf [] (pieces [] 0 0 0 markup)).map visible
  else .ok (visible markup)

end MdxLocalization.Console
