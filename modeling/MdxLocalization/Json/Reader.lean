import MdxLocalization.Json.Value
import MdxLocalization.Number.IntegerText
import MdxLocalization.Text.Digit

/-!
# Reading JSON

`Json.read` accepts the JSON grammar extended by the constants `NaN`, `Infinity` and `-Infinity`.
Only space, tab, carriage return and line feed count as white space, and control characters must
not stand bare in strings. A failure names its cause and the position at which it was noticed.

The readers below consume a text from the front and return the rest; an error carries the length of
what was left, from which the position follows. Nesting is bounded by a budget, which `Json.read`
sets to the length of the text: every level of nesting uses up a bracket.
-/

namespace MdxLocalization

/-- What is wrong with a JSON text at the position of an error. -/
inductive JsonError.Cause where
  | expectedValue
  | expectedComma
  | expectedColon
  | expectedName
  | extraData
  | unterminatedString
  | controlCharacter
  | invalidEscape
  | invalidUnicodeEscape
  | byteOrderMark
  deriving DecidableEq, Repr

/-- Why a text is no JSON value: a fault at a position, or an integer that is too long to read. -/
inductive JsonError where
  | fault (cause : JsonError.Cause) (position line column : Nat)
  | longInteger (error : IntegerTextError)
  deriving DecidableEq, Repr

namespace JsonError

/-- The words for a cause. -/
def Cause.message : Cause → String
  | .expectedValue => "Expecting value"
  | .expectedComma => "Expecting ',' delimiter"
  | .expectedColon => "Expecting ':' delimiter"
  | .expectedName => "Expecting property name enclosed in double quotes"
  | .extraData => "Extra data"
  | .unterminatedString => "Unterminated string starting at"
  | .controlCharacter => "Invalid control character at"
  | .invalidEscape => "Invalid \\escape"
  | .invalidUnicodeEscape => "Invalid \\uXXXX escape"
  | .byteOrderMark => "Unexpected UTF-8 BOM (decode using utf-8-sig)"

/-- The message of an error: the cause, then line, column and character position. -/
def message : JsonError → Text
  | .fault cause position line column =>
    Text.ofString cause.message ++ Text.ofString ": line " ++ Text.ofNat line ++
      Text.ofString " column " ++ Text.ofNat column ++ Text.ofString " (char " ++
      Text.ofNat position ++ [')']
  | .longInteger error => IntegerText.message error

end JsonError

namespace Json

/-- An error inside the readers: a cause with the length of the text left, or an integer that is
too long. -/
inductive ReadError where
  | fault (cause : JsonError.Cause) (left : Nat)
  | longInteger (error : IntegerTextError)

/-- White space between the parts of a JSON text. -/
def isSpace (c : Char) : Bool := c == ' ' || c == '\t' || c == '\n' || c == '\r'

/-- The text without leading white space. -/
def skipSpace (t : Text) : Text := t.dropWhile isSpace

/-- The number of four hexadecimal digits. -/
def fourHex? (a b c d : Char) : Option Nat := do
  let a ← Text.hexDigit? a
  let b ← Text.hexDigit? b
  let c ← Text.hexDigit? c
  let d ← Text.hexDigit? d
  return ((a * 16 + b) * 16 + c) * 16 + d

/-- The character that a one-letter escape stands for. -/
def escaped? : Char → Option Char
  | '"' => some '"'
  | '\\' => some '\\'
  | '/' => some '/'
  | 'b' => some '\x08'
  | 'f' => some '\x0c'
  | 'n' => some '\n'
  | 'r' => some '\r'
  | 't' => some '\t'
  | _ => none

/-- The character of a code; a lone half of a surrogate pair becomes the replacement character. -/
def codeChar (code : Nat) : Char :=
  if 0xD800 ≤ code && code ≤ 0xDFFF then '\uFFFD' else Char.ofNat code

/-- Reads the inside of a string and its closing quote. `start` is the length of the text from the
opening quote on, where an unterminated string is reported. A code escape needs a character
after it. -/
def readString (start : Nat) : Text → Except ReadError (Text × Text)
  | [] => .error (.fault .unterminatedString start)
  | '"' :: rest => .ok ([], rest)
  | ['\\'] => .error (.fault .unterminatedString start)
  | '\\' :: 'u' :: a :: b :: c :: d :: e :: rest =>
    match fourHex? a b c d with
    | none => .error (.fault .invalidUnicodeEscape (rest.length + 6))
    | some high =>
      let pair? : Option (Except ReadError (Nat × Text)) :=
        if 0xD800 ≤ high && high ≤ 0xDBFF && e == '\\' then
          match rest with
          | 'u' :: a :: b :: c :: d :: f :: tail =>
            match fourHex? a b c d with
            | none => some (.error (.fault .invalidUnicodeEscape (tail.length + 6)))
            | some low =>
              if 0xDC00 ≤ low && low ≤ 0xDFFF then
                some (.ok (0x10000 + (high - 0xD800) * 0x400 + (low - 0xDC00), f :: tail))
              else none
          | _ => none
        else none
      match pair? with
      | some (.error error) => .error error
      | some (.ok (code, tail)) =>
        if tail.length < rest.length then
          (readString start tail).map fun (t, rest) => (codeChar code :: t, rest)
        else .error (.fault .unterminatedString start)
      | none => (readString start (e :: rest)).map fun (t, rest) => (codeChar high :: t, rest)
  | '\\' :: 'u' :: rest => .error (.fault .invalidUnicodeEscape (rest.length + 1))
  | '\\' :: c :: rest =>
    match escaped? c with
    | none => .error (.fault .invalidEscape (rest.length + 2))
    | some c => (readString start rest).map fun (t, rest) => (c :: t, rest)
  | c :: rest =>
    if c.toNat < 32 then .error (.fault .controlCharacter (rest.length + 1))
    else (readString start rest).map fun (t, rest) => (c :: t, rest)
  termination_by t => t.length

/-- Splits off the leading ASCII digits. -/
def takeDigits (t : Text) : Text × Text := (t.takeWhile Char.isDigit, t.dropWhile Char.isDigit)

def takeFraction : Text → Text × Text
  | '.' :: rest =>
    let (digits, tail) := takeDigits rest
    if digits.isEmpty then ([], '.' :: rest) else (digits, tail)
  | t => ([], t)

/-- Reads an exponent: the letter, an optional sign and at least one digit. -/
def takeExponent (t : Text) : Option (Int × Text) :=
  match t with
  | [] => none
  | c :: rest =>
    if c == 'e' || c == 'E' then
      let (negative, body) :=
        match rest with
        | '-' :: body => (true, body)
        | '+' :: body => (false, body)
        | _ => (false, rest)
      let (digits, tail) := takeDigits body
      if digits.isEmpty then none
      else
        let n : Int := Text.natOfDigits digits
        some (if negative then -n else n, tail)
    else none

/-- Reads a number that starts here. -/
def readNumber (t : Text) : Except ReadError (Json × Text) :=
  let (negative, body) :=
    match t with
    | '-' :: rest => (true, rest)
    | _ => (false, t)
  let (whole, rest) :=
    match body with
    | '0' :: rest => (['0'], rest)
    | _ => takeDigits body
  if whole.isEmpty then .error (.fault .expectedValue t.length)
  else
    let (fraction, rest) := takeFraction rest
    let (exponent, isReal, rest) :=
      match takeExponent rest with
      | some (e, rest) => (e, true, rest)
      | none => (0, !fraction.isEmpty, rest)
    if isReal then
      let x := Binary64.ofDecimal negative (Text.natOfDigits (whole ++ fraction))
        (exponent - fraction.length)
      .ok (.real x, rest)
    else if IntegerText.maxDigits < whole.length then
      .error (.longInteger (.tooLong whole.length))
    else
      let n : Int := Text.natOfDigits whole
      .ok (.integer (if negative then -n else n), rest)

/-- The constants, by the text they start with. -/
def constants : List (String × Json) :=
  [("null", .null), ("true", .bool true), ("false", .bool false), ("NaN", .real .nan),
    ("Infinity", .real (.infinite false)), ("-Infinity", .real (.infinite true))]

/-- Reads a constant that starts here, if one does. -/
def readConstant? (t : Text) : Option (Json × Text) :=
  constants.findSome? fun (name, value) =>
    if Text.startsWith t (Text.ofString name) then some (value, t.drop name.length) else none

mutual

/-- Reads a value that starts here. -/
def readValue (budget : Nat) (t : Text) : Except ReadError (Json × Text) :=
  match budget with
  | 0 => .error (.fault .expectedValue t.length)
  | budget + 1 =>
    match t with
    | '"' :: rest => (readString t.length rest).map fun (s, rest) => (.text s, rest)
    | '[' :: rest =>
      match skipSpace rest with
      | ']' :: rest => .ok (.array [], rest)
      | start => (readItems budget start).map fun (items, rest) => (.array items, rest)
    | '\x7b' :: rest =>
      match skipSpace rest with
      | '\x7d' :: rest => .ok (.object [], rest)
      | start => (readFields budget [] start).map fun (fields, rest) => (.object fields, rest)
    | _ =>
      match readConstant? t with
      | some found => .ok found
      | none => readNumber t

/-- Reads the items of an array from its first one to the closing bracket. -/
def readItems (budget : Nat) (t : Text) : Except ReadError (List Json × Text) :=
  match budget with
  | 0 => .error (.fault .expectedValue t.length)
  | budget + 1 => do
    let (item, rest) ← readValue budget t
    match skipSpace rest with
    | ']' :: rest => return ([item], rest)
    | ',' :: rest =>
      let (items, rest) ← readItems budget (skipSpace rest)
      return (item :: items, rest)
    | rest => .error (.fault .expectedComma rest.length)

/-- Reads the fields of an object from its first name to the closing brace, adding them to those
already read. -/
def readFields (budget : Nat) (fields : List (Text × Json)) (t : Text) :
    Except ReadError (List (Text × Json) × Text) :=
  match budget with
  | 0 => .error (.fault .expectedName t.length)
  | budget + 1 =>
    match t with
    | '"' :: rest => do
      let (name, rest) ← readString t.length rest
      match skipSpace rest with
      | ':' :: rest =>
        let (value, rest) ← readValue budget (skipSpace rest)
        let fields := setField name value fields
        match skipSpace rest with
        | '\x7d' :: rest => return (fields, rest)
        | ',' :: rest => readFields budget fields (skipSpace rest)
        | rest => .error (.fault .expectedComma rest.length)
      | rest => .error (.fault .expectedColon rest.length)
    | _ => .error (.fault .expectedName t.length)

end

/-- Gives an error inside the readers its place in the whole text. -/
def locate (t : Text) : ReadError → JsonError
  | .longInteger error => .longInteger error
  | .fault cause left =>
    let position := t.length - left
    let before := t.take position
    let line := before.count '\n' + 1
    let column := Text.countWhile (· != '\n') before.reverse + 1
    .fault cause position line column

/-- Reads a JSON text. -/
def read (t : Text) : Except JsonError Json :=
  match t with
  | '\uFEFF' :: _ => .error (.fault .byteOrderMark 0 1 1)
  | _ =>
    match readValue (2 * t.length + 2) (skipSpace t) with
    | .error error => .error (locate t error)
    | .ok (value, rest) =>
      let rest := skipSpace rest
      if rest.isEmpty then .ok value else .error (locate t (.fault .extraData rest.length))

end Json

end MdxLocalization
