import MdxLocalization.Number.IntegerText
import MdxLocalization.Text.Word

/-!
# Replacement templates

A template says what a match is replaced by. Outside of escapes it stands for itself. The escape
`\g<0>` stands for the whole match; it is the only group there is. Control characters have letters,
octal codes start with a zero or have three digits, a backslash before another character that is no
letter stands for itself.

An error names the position in the template at which it was noticed.
-/

namespace MdxLocalization

/-- What is wrong with a template. -/
inductive TemplateFault where
  | missingBracket
  | missingGroupName
  | unterminatedName
  | badGroupName (name : Text)
  | badGroup (index : Nat)
  | badEscape (escape : Text)
  | octalRange (escape : Text)
  deriving DecidableEq, Repr

/-- Why a text is no template. A group that has a proper name does not exist. -/
inductive TemplateError where
  | fault (what : TemplateFault) (template : Text) (position : Nat)
  | unknownGroup (name : Text)
  deriving DecidableEq, Repr

namespace TemplateFault

/-- The words for a fault. -/
def message : TemplateFault → Text
  | .missingBracket => Text.ofString "missing <"
  | .missingGroupName => Text.ofString "missing group name"
  | .unterminatedName => Text.ofString "missing >, unterminated name"
  | .badGroupName name => Text.ofString "bad character in group name " ++ Text.quoted name
  | .badGroup index => Text.ofString "invalid group reference " ++ Text.ofNat index
  | .badEscape escape => Text.ofString "bad escape " ++ escape
  | .octalRange escape =>
    Text.ofString "octal escape value " ++ escape ++ Text.ofString " outside of range 0-0o377"

end TemplateFault

namespace TemplateError

/-- The message of an error, with line and column when the template has several lines. -/
def message : TemplateError → Text
  | .unknownGroup name => Text.ofString "unknown group name " ++ Text.quoted name
  | .fault what template position =>
    let text := what.message ++ Text.ofString " at position " ++ Text.ofNat position
    if template.contains '\n' then
      let before := template.take position
      text ++ Text.ofString " (line " ++ Text.ofNat (before.count '\n' + 1) ++
        Text.ofString ", column " ++
        Text.ofNat (Text.countWhile (· != '\n') before.reverse + 1) ++ [')']
    else text

end TemplateError

namespace Template

/-- A part of a template: a character, or the whole match. -/
inductive Piece where
  | char (c : Char)
  | wholeMatch
  deriving DecidableEq, Repr

/-- The control character that a letter stands for after a backslash. -/
def control? : Char → Option Char
  | 'a' => some '\x07'
  | 'b' => some '\x08'
  | 'f' => some '\x0c'
  | 'n' => some '\n'
  | 'r' => some '\r'
  | 't' => some '\t'
  | 'v' => some '\x0b'
  | '\\' => some '\\'
  | _ => none

def isOctal (c : Char) : Bool := '0' ≤ c && c ≤ '7'

/-- The number written by octal digits. -/
def octalValue (t : Text) : Nat := t.foldl (fun n c => n * 8 + (c.toNat - 48)) 0

/-- The text up to the closing bracket of a group name and the text after the bracket; a backslash
takes the character after it along. -/
def groupName? : Text → Option (Text × Text)
  | [] => none
  | '>' :: rest => some ([], rest)
  | '\\' :: c :: rest => (groupName? rest).map fun (name, rest) => ('\\' :: c :: name, rest)
  | c :: rest => (groupName? rest).map fun (name, rest) => (c :: name, rest)

/-- Whether a text has the form of a name. -/
def isIdentifier (t : Text) : Bool :=
  match t with
  | [] => false
  | c :: _ => !(Text.digitValue? c).isSome && t.all Text.isWord

/-- The group that a name refers to. `left` is the length of the template after the name. -/
def groupIndex (fail : TemplateFault → Nat → TemplateError) (name : Text) (left : Nat) :
    Except TemplateError Unit :=
  let place := left + name.length + 1
  if isIdentifier name then .error (.unknownGroup name)
  else
    match IntegerText.read name with
    | .ok (.ofNat 0) => .ok ()
    | .ok (.ofNat index) => .error (fail (.badGroup index) place)
    | _ => .error (fail (.badGroupName name) place)

/-- Reads a template; `fail` makes an error from a fault and the length of the template left. -/
def readFrom (fail : TemplateFault → Nat → TemplateError) :
    Nat → Text → Except TemplateError (List Piece)
  | 0, _ => .ok []
  | _ + 1, [] => .ok []
  | budget + 1, '\\' :: c :: rest =>
    let literal := fun (c : Char) (rest : Text) =>
      (readFrom fail budget rest).map (Piece.char c :: ·)
    if c = 'g' then
      match rest with
      | '<' :: rest =>
        match groupName? rest with
        | none =>
          if rest.isEmpty then .error (fail .missingGroupName 0)
          else .error (fail .unterminatedName rest.length)
        | some ([], rest) => .error (fail .missingGroupName (rest.length + 1))
        | some (name, rest) => do
          groupIndex fail name rest.length
          (readFrom fail budget rest).map (Piece.wholeMatch :: ·)
      | _ => .error (fail .missingBracket rest.length)
    else if c = '0' then
      let digits := (rest.take 2).takeWhile isOctal
      literal (Char.ofNat (octalValue digits % 256)) (rest.drop digits.length)
    else if c.isDigit then
      match rest with
      | d :: e :: tail =>
        if isOctal c && isOctal d && isOctal e then
          let value := octalValue [c, d, e]
          if 255 < value then .error (fail (.octalRange ['\\', c, d, e]) (tail.length + 4))
          else literal (Char.ofNat value) tail
        else if d.isDigit then
          .error (fail (.badGroup (Text.natOfDigits [c, d])) (tail.length + 3))
        else .error (fail (.badGroup (Text.natOfDigits [c])) (rest.length + 1))
      | [d] =>
        if d.isDigit then .error (fail (.badGroup (Text.natOfDigits [c, d])) 2)
        else .error (fail (.badGroup (Text.natOfDigits [c])) 2)
      | [] => .error (fail (.badGroup (Text.natOfDigits [c])) 1)
    else
      match control? c with
      | some d => literal d rest
      | none =>
        if c.isAlpha then .error (fail (.badEscape ['\\', c]) (rest.length + 2))
        else (literal c rest).map (Piece.char '\\' :: ·)
  | budget + 1, c :: rest => (readFrom fail budget rest).map (Piece.char c :: ·)

def read (template : Text) : Except TemplateError (List Piece) :=
  readFrom (fun fault left => .fault fault template (template.length - left))
    (template.length + 1) template

/-- The text that a template stands for when `matched` is the match. -/
def expand (pieces : List Piece) (matched : Text) : Text :=
  pieces.flatMap fun
    | .char c => [c]
    | .wholeMatch => matched

end Template

end MdxLocalization
