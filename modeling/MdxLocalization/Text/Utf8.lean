import MdxLocalization.Text.Quoted

/-!
# UTF-8

A text is encoded character by character. Decoding reads one character at a time and refuses what
no character encodes to: a byte that starts none, a sequence that breaks off, and a byte where a
continuation is owed. An error names the bytes from the start of the sequence to the fault.
-/

namespace MdxLocalization

/-- What is wrong with a sequence of bytes. -/
inductive Utf8Fault where
  | invalidStart
  | invalidContinuation
  | unexpectedEnd
  deriving DecidableEq, Repr

/-- Why bytes are no text: the fault, the position where the sequence starts, its first byte, and
the number of bytes concerned. -/
structure Utf8Error where
  fault : Utf8Fault
  position : Nat
  byte : Nat
  length : Nat
  deriving DecidableEq, Repr

/-- The words for a fault. -/
def Utf8Fault.message : Utf8Fault → String
  | .invalidStart => "invalid start byte"
  | .invalidContinuation => "invalid continuation byte"
  | .unexpectedEnd => "unexpected end of data"

/-- The message of an error. -/
def Utf8Error.message (e : Utf8Error) : Text :=
  let place :=
    if e.length = 1 then
      Text.ofString "byte 0x" ++ Text.hexPadded 2 e.byte ++ Text.ofString " in position " ++
        Text.ofNat e.position
    else
      Text.ofString "bytes in position " ++ Text.ofNat e.position ++
        '-' :: Text.ofNat (e.position + e.length - 1)
  Text.ofString "'utf-8' codec can't decode " ++ place ++ ':' :: ' ' ::
    Text.ofString e.fault.message

namespace Utf8

/-- The bytes of a character. -/
def encodeChar (c : Char) : List Nat :=
  let n := c.toNat
  if n < 0x80 then [n]
  else if n < 0x800 then [0xC0 + n / 0x40, 0x80 + n % 0x40]
  else if n < 0x10000 then [0xE0 + n / 0x1000, 0x80 + n / 0x40 % 0x40, 0x80 + n % 0x40]
  else
    [0xF0 + n / 0x40000, 0x80 + n / 0x1000 % 0x40, 0x80 + n / 0x40 % 0x40, 0x80 + n % 0x40]

/-- The bytes of a text. -/
def encode (t : Text) : List Nat := t.flatMap encodeChar

/-- Whether a byte continues a sequence. -/
def isContinuation (b : Nat) : Bool := 0x80 ≤ b && b ≤ 0xBF

/-- Whether a byte may follow the first byte of a sequence. The bounds exclude overlong forms, the
surrogates, and what lies past the last code point. -/
def mayFollow (first b : Nat) : Bool :=
  isContinuation b &&
    (if first = 0xE0 then 0xA0 ≤ b
     else if first = 0xED then b < 0xA0
     else if first = 0xF0 then 0x90 ≤ b
     else if first = 0xF4 then b < 0x90
     else true)

/-- The number of bytes after a first byte, when it starts a character. -/
def owed? (first : Nat) : Option Nat :=
  if first < 0x80 then some 0
  else if 0xC2 ≤ first && first ≤ 0xDF then some 1
  else if 0xE0 ≤ first && first ≤ 0xEF then some 2
  else if 0xF0 ≤ first && first ≤ 0xF4 then some 3
  else none

/-- The leading bits of the code point, from the first byte. -/
def leadBits (first : Nat) : Nat :=
  if first < 0x80 then first
  else if first < 0xE0 then first - 0xC0
  else if first < 0xF0 then first - 0xE0
  else first - 0xF0

/-- How many of the owed bytes are there: the first has to be allowed after the first byte of the
sequence, the others have to be continuations. -/
def presentBytes (first owed : Nat) (rest : List Nat) : List Nat :=
  match rest.take owed with
  | [] => []
  | b :: more => if mayFollow first b then b :: more.takeWhile isContinuation else []

/-- Decodes bytes that stand at a position. The budget bounds the number of characters. -/
def decodeFrom : Nat → Nat → List Nat → Except Utf8Error Text
  | 0, _, _ => .ok []
  | _ + 1, _, [] => .ok []
  | budget + 1, position, first :: rest =>
    match owed? first with
    | none => .error ⟨.invalidStart, position, first, 1⟩
    | some owed =>
      let present := presentBytes first owed rest
      if present.length = owed then
        let code := present.foldl (fun n b => n * 0x40 + (b - 0x80)) (leadBits first)
        (decodeFrom budget (position + owed + 1) (rest.drop owed)).map (Char.ofNat code :: ·)
      else if present.length = rest.length then
        .error ⟨.unexpectedEnd, position, first, present.length + 1⟩
      else .error ⟨.invalidContinuation, position, first, present.length + 1⟩

def decode (bytes : List Nat) : Except Utf8Error Text := decodeFrom bytes.length 0 bytes

end Utf8

end MdxLocalization
