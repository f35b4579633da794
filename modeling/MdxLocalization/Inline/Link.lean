import MdxLocalization.Inline.CodeSpan

/-!
# Links

A link is a label in square brackets followed directly by a destination, and possibly a title, in
round brackets. `link?` recognises a link at the start of a text; all positions in its result count
from that start.

Brackets in the label have to be balanced, not counting those in code spans or behind a backslash.
The destination is either enclosed in angle brackets or runs to the next white space or unbalanced
closing bracket. The title keeps its escapes.
-/

namespace MdxLocalization.Inline

/-- The parts of a link; positions count from the opening square bracket. -/
structure LinkSyntax where
  /-- The length of the label, which starts at position one. -/
  labelLength : Nat
  url : Text
  urlStart : Nat
  urlStop : Nat
  title : Option Text
  /-- Whether the destination stands in angle brackets. -/
  angle : Bool
  /-- The length of the whole link. -/
  length : Nat
  deriving Repr, DecidableEq

/-- The position of the bracket that closes the label. `depth` counts the open brackets before the
text, and `offset` is the position of the text. -/
def labelStop? (depth offset : Nat) : Text → Option Nat
  | [] => none
  | c :: rest =>
    if c = '\\' then labelStop? depth (offset + 2) (rest.drop 1)
    else if c = '[' then labelStop? (depth + 1) (offset + 1) rest
    else if c = ']' then
      if depth = 1 then some offset else labelStop? (depth - 1) (offset + 1) rest
    else
      match (if c = tick then codeSpan? (c :: rest) else none) with
      | some (_, length) => labelStop? depth (offset + length) (rest.drop (length - 1))
      | none => labelStop? depth (offset + 1) rest
  termination_by t => t.length
  decreasing_by all_goals simp_all; try omega

/-- White space inside the round brackets of a link. -/
def isLinkSpace (c : Char) : Bool := c == ' ' || c == '\t' || c == '\r' || c == '\n'

def skipLinkSpace (t : Text) : Text := t.dropWhile isLinkSpace

/-- The length of a destination without angle brackets. `depth` counts its open round brackets. -/
def bareLength (depth : Nat) : Text → Nat
  | [] => 0
  | '\\' :: _ :: rest => bareLength depth rest + 2
  | c :: rest =>
    if Text.isBlank c then 0
    else if c = '(' then bareLength (depth + 1) rest + 1
    else if c = ')' then (if depth = 0 then 0 else bareLength (depth - 1) rest + 1)
    else bareLength depth rest + 1

/-- The length of a title up to its closing character, which has to be there. -/
def titleLength? (closing : Char) : Text → Option Nat
  | [] => none
  | c :: rest =>
    if c = closing then some 0
    else if c = '\\' then
      match rest with
      | [] => none
      | _ :: rest => (titleLength? closing rest).map (· + 2)
    else (titleLength? closing rest).map (· + 1)

def titleCloser? (c : Char) : Option Char :=
  if c = '(' then some ')' else if c = '"' || c = '\'' then some c else none

/-- Reads the title, if there is one, and the closing bracket of a link. The result is the title
and the text after the link. -/
def linkTail? (t : Text) : Option (Option Text × Text) :=
  match t with
  | [] => none
  | c :: rest =>
    match titleCloser? c with
    | none => if c = ')' then some (none, rest) else none
    | some closing =>
      match titleLength? closing rest with
      | none => none
      | some length =>
        match skipLinkSpace (rest.drop (length + 1)) with
        | ')' :: tail => some (some (rest.take length), tail)
        | _ => none

/-- Reads the destination at the start of a text: the address, its position, whether it stands in
angle brackets, and the text after it. -/
def destination? (t : Text) : Option (Text × Nat × Bool × Text) :=
  match t with
  | '<' :: rest =>
    match Text.findChar? (· == '>') rest with
    | none => none
    | some length => some (rest.take length, 1, true, rest.drop (length + 1))
  | _ =>
    let length := bareLength 0 t
    some (t.take length, 0, false, t.drop length)

/-- The link that starts a text. -/
def link? (t : Text) : Option LinkSyntax :=
  match labelStop? 0 0 t with
  | none => none
  | some labelStop =>
    match t.drop (labelStop + 1) with
    | '(' :: inside =>
      let start := skipLinkSpace inside
      match destination? start with
      | none => none
      | some (url, before, angle, afterUrl) =>
        match linkTail? (skipLinkSpace afterUrl) with
        | none => none
        | some (title, tail) =>
          let urlStart := t.length - start.length + before
          some {
            labelLength := labelStop - 1
            url
            urlStart
            urlStop := urlStart + url.length
            title
            angle
            length := t.length - tail.length }
    | _ => none

end MdxLocalization.Inline
