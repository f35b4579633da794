import MdxLocalization.Text.Basic

/-!
# Host names in ASCII

A label of a host name that has characters outside ASCII is written as its ASCII characters, a
hyphen, and digits that tell which other characters to insert where. The digits are differences in
a number system of base 36 whose thresholds adapt to the differences seen.
-/

namespace MdxLocalization.Markdown.Punycode

/-- The digit with a value: letters first, then figures. -/
def digit (n : Nat) : Char := if n < 26 then Char.ofNat (97 + n) else Char.ofNat (22 + n)

def digitValue? (c : Char) : Option Nat :=
  if c.isLower then some (c.toNat - 97)
  else if c.isUpper then some (c.toNat - 65)
  else if c.isDigit then some (c.toNat - 22)
  else none

/-- The threshold of a digit that stands at a place, which is a multiple of 36. -/
def threshold (place bias : Nat) : Nat :=
  if place ≤ bias + 1 then 1 else if bias + 26 ≤ place then 26 else place - bias

/-- Scales a difference down; the result is the bias for the next one. -/
def scale : Nat → Nat → Nat → Nat
  | 0, delta, k => k + 36 * delta / (delta + 38)
  | budget + 1, delta, k =>
    if 455 < delta then scale budget (delta / 35) (k + 36) else k + 36 * delta / (delta + 38)

/-- The bias after a difference, when `count` characters have been handled. -/
def adapt (delta count : Nat) (isFirst : Bool) : Nat :=
  let delta := if isFirst then delta / 700 else delta / 2
  scale delta (delta + delta / count) 0

/-- The digits of a difference. -/
def digits (bias : Nat) : Nat → Nat → Nat → Text
  | 0, _, n => [digit n]
  | budget + 1, place, n =>
    let t := threshold place bias
    if n < t then [digit n]
    else
      digit (t + (n - t) % (36 - t)) :: digits bias budget (place + 36) ((n - t) / (36 - t))

/-- The state of encoding: the digits so far, the current difference, the bias, and the number of
characters handled. -/
structure Encoding where
  output : Text
  delta : Nat
  bias : Nat
  handled : Nat

/-- Goes over a label and writes a difference for each occurrence of a code point. -/
def encodeCode (label : Text) (basic code : Nat) (s : Encoding) : Encoding :=
  label.foldl
    (fun s c =>
      if c.toNat < code then { s with delta := s.delta + 1 }
      else if c.toNat = code then
        { output := s.output ++ digits s.bias s.delta 36 s.delta
          delta := 0
          bias := adapt s.delta (s.handled + 1) (s.handled = basic)
          handled := s.handled + 1 }
      else s)
    s

/-- Handles the code points of a label in ascending order, from `next` on. -/
def encodeCodes (label : Text) (basic : Nat) : List Nat → Nat → Encoding → Encoding
  | [], _, s => s
  | code :: rest, next, s =>
    let s := { s with delta := s.delta + (code - next) * (s.handled + 1) }
    let s := encodeCode label basic code s
    encodeCodes label basic rest (code + 1) { s with delta := s.delta + 1 }

/-- The ASCII form of a label, without the mark in front. -/
def encode (label : Text) : Text :=
  let basic := label.filter fun c => c.toNat < 128
  let codes := ((label.filter fun c => 128 ≤ c.toNat).map Char.toNat).mergeSort.eraseDups
  let start : Encoding := ⟨[], 0, 72, basic.length⟩
  let result := encodeCodes label basic.length codes 128 start
  (if basic.isEmpty then [] else basic ++ ['-']) ++ result.output

/-- Reads a difference: its value and the text after it. -/
def readDelta? (bias : Nat) : Nat → Nat → Nat → Text → Option (Nat × Text)
  | _, _, _, [] => none
  | place, weight, value, c :: rest =>
    match digitValue? c with
    | none => none
    | some d =>
      let t := threshold place bias
      let value := value + d * weight
      if d < t then some (value, rest)
      else readDelta? bias (place + 36) (weight * (36 - t)) value rest

/-- Inserts characters as the differences tell. The budget bounds their number. -/
def decodeFrom : Nat → Bool → Nat → Nat → Nat → Text → Text → Option Text
  | 0, _, _, _, _, output, _ => some output
  | _ + 1, _, _, _, _, output, [] => some output
  | budget + 1, isFirst, bias, code, position, output, t =>
    match readDelta? bias 36 1 0 t with
    | none => none
    | some (delta, rest) =>
      let count := output.length + 1
      let place := position + delta
      let code := code + place / count
      let place := place % count
      if 0x10FFFF < code || (0xD800 ≤ code && code ≤ 0xDFFF) then none
      else
        decodeFrom budget false (adapt delta count isFirst) code (place + 1)
          (output.take place ++ Char.ofNat code :: output.drop place) rest

/-- The label with a given ASCII form. -/
def decode? (t : Text) : Option Text :=
  let afterHyphen := t.reverse.takeWhile (· != '-')
  let (basic, extended) :=
    if afterHyphen.length = t.length then ([], t)
    else (t.take (t.length - afterHyphen.length - 1), afterHyphen.reverse)
  if basic.any fun c => 128 ≤ c.toNat then none
  else decodeFrom (extended.length + 1) true 72 128 0 basic extended

/-- What stands in front of a label in ASCII form. -/
def mark : Text := ['x', 'n', '-', '-']

/-- The labels of a host name; some full stops of other scripts separate labels too. -/
def labels (host : Text) : List Text :=
  Text.splitOn '.' (host.map fun c =>
    if c.toNat = 0x3002 || c.toNat = 0xFF0E || c.toNat = 0xFF61 then '.' else c)

/-- Applies a function to the labels of a host name. What stands before an at sign stays. -/
def mapLabels (f : Text → Option Text) (host : Text) : Option Text := do
  let (user, domain) :=
    match Text.splitOn '@' host with
    | user :: domain :: _ => (user ++ ['@'], domain)
    | _ => ([], host)
  let labels ← (labels domain).mapM f
  return user ++ Text.join ['.'] labels

def toAscii (host : Text) : Text :=
  (mapLabels
    (fun label =>
      some (if label.any (fun c => 0x7F ≤ c.toNat) then mark ++ encode label else label))
    host).getD host

/-- A host name with its labels in ASCII form read back; a name with a label that cannot be read
stays as it is. -/
def toUnicode (host : Text) : Text :=
  (mapLabels
    (fun label =>
      if Text.startsWith label mark then decode? ((label.drop 4).map Char.toLower) else some label)
    host).getD host

end MdxLocalization.Markdown.Punycode
