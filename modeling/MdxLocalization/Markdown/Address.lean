import MdxLocalization.Markdown.Punycode
import MdxLocalization.Text.Blank
import MdxLocalization.Text.Digit
import MdxLocalization.Text.Utf8

/-!
# Addresses

An address is taken apart into protocol, user, host, host number and the rest, its host name is
brought into ASCII form, and what must not stand in an address is percent-encoded. Some protocols
are not let through, because following such a link would run code.
-/

namespace MdxLocalization.Markdown.Address

/-- The parts of an address. -/
structure Parts where
  protocol : Text := []
  slashes : Bool := false
  auth : Text := []
  host : Text := []
  /-- The digits behind the host and a colon. -/
  hostNumber : Text := []
  /-- Path, query and fragment. -/
  tail : Text := []
  deriving Repr

def isProtocolChar (c : Char) : Bool := c.isAlphanum || c == '.' || c == '+' || c == '-'

/-- The protocol at the start of an address, with its colon. -/
def protocolOf (t : Text) : Text :=
  let name := t.takeWhile isProtocolChar
  match t.drop name.length with
  | ':' :: _ => if name.isEmpty then [] else name ++ [':']
  | _ => []

/-- The protocols that always have slashes before the host. -/
def slashedProtocols : List String := ["http:", "https:", "ftp:", "gopher:", "file:"]

def isHostless (protocol : Text) : Bool := protocol = Text.ofString "javascript:"

def endsHost (c : Char) : Bool :=
  [ '%', '/', '?', ';', '#', '\'', '\x7b', '\x7d', '|', '\\', '^', '\x60', '<', '>', '"', ' ', '\r',
    '\n', '\t' ].contains c

/-- A character of a part of a host name. -/
def isHostChar (c : Char) : Bool := c.isAlphanum || c == '+' || c == '_' || c == '-'

/-- Splits off what stands before the last at sign of the authority, which a slash, a question mark
or a number sign ends. -/
def splitAuth (t : Text) : Text × Text :=
  let authority := t.takeWhile fun c => !(c == '/' || c == '?' || c == '#')
  let host := (authority.reverse.takeWhile (· != '@')).reverse
  if host.length = authority.length then ([], t)
  else
    let length := authority.length - host.length - 1
    (t.take length, t.drop (length + 1))

/-- Splits the digits after the last colon off a host. -/
def splitHostNumber (host : Text) : Text × Text :=
  let digits := (host.reverse.takeWhile Char.isDigit).reverse
  let before := host.take (host.length - digits.length)
  match before.getLast? with
  | some ':' => (before.dropLast, digits)
  | _ => (host, [])

/-- Checks the parts of a host name. From the first part that is too long or has a character that
must not stand in a host name, the name ends; the result is the name and what does not belong to
it. Characters outside ASCII count as letters here. -/
def checkHost (done : List Text) : List Text → Text × Text
  | [] => (Text.join ['.'] done.reverse, [])
  | part :: rest =>
    let plain := part.map fun c => if 127 < c.toNat then 'x' else c
    if plain.length ≤ 63 && plain.all isHostChar then checkHost (part :: done) rest
    else
      let good := (part.take 63).takeWhile isHostChar
      (Text.join ['.'] (good :: done).reverse, Text.join ['.'] (part.drop good.length :: rest))

/-- Takes an address apart. -/
def parse (url : Text) : Parts :=
  let rest := Text.trim url
  let protocol := protocolOf rest
  let rest := rest.drop protocol.length
  let hasSlashes := Text.startsWith rest ['/', '/']
  let slashes := hasSlashes && !isHostless protocol
  let rest := if slashes then rest.drop 2 else rest
  let isSlashed := slashedProtocols.contains (Text.toString protocol)
  if !isHostless protocol && (hasSlashes || (!protocol.isEmpty && !isSlashed)) then
    let (auth, rest) := splitAuth rest
    let host := rest.takeWhile fun c => !endsHost c
    let host := if host.getLast? = some ':' then host.dropLast else host
    let rest := rest.drop host.length
    let (name, hostNumber) := splitHostNumber host
    let isBracketed := name.head? = some '[' && name.getLast? = some ']'
    let (name, excess) := if isBracketed then (name, []) else checkHost [] (Text.splitOn '.' name)
    let name := if 255 < name.length then [] else name
    let name := if isBracketed then (name.drop 1).dropLast else name
    { protocol, slashes, auth, host := name, hostNumber, tail := excess ++ rest }
  else { protocol, slashes, tail := rest }

/-- The text of an address. A host with colons stands in brackets. -/
def format (p : Parts) : Text :=
  p.protocol ++ (if p.slashes then ['/', '/'] else []) ++
    (if p.auth.isEmpty then [] else p.auth ++ ['@']) ++
    (if p.host.contains ':' then '[' :: p.host ++ [']'] else p.host) ++
    (if p.hostNumber.isEmpty then [] else ':' :: p.hostNumber) ++ p.tail

/-- A byte as a percent sign and two hexadecimal digits. -/
def percentByte (b : Nat) : Text :=
  let hex := fun n : Nat => if n < 10 then Char.ofNat (48 + n) else Char.ofNat (55 + n)
  ['%', hex (b / 16), hex (b % 16)]

/-- The characters other than letters and digits that stay as they are. -/
def plainMarks : List Char :=
  [';', '/', '?', ':', '@', '&', '=', '+', '$', ',', '-', '_', '.', '!', '~', '*', '\'', '(', ')',
    '#']

/-- Percent-encodes what must not stand in an address. A percent sign with two hexadecimal digits
stays. -/
def encode : Text → Text
  | [] => []
  | '%' :: a :: b :: rest =>
    if (Text.hexDigit? a).isSome && (Text.hexDigit? b).isSome then '%' :: a :: b :: encode rest
    else '%' :: '2' :: '5' :: encode (a :: b :: rest)
  | c :: rest =>
    (if c.isAlphanum || plainMarks.contains c then [c]
     else (Utf8.encodeChar c).flatMap percentByte) ++ encode rest

/-- Whether the host of an address is brought into another form: not for unknown protocols, which
may mean something else by it. -/
def recodesHost (p : Parts) : Bool :=
  !p.host.isEmpty &&
    (p.protocol.isEmpty || ["http:", "https:", "mailto:"].contains (Text.toString p.protocol))

/-- The form of an address in which it is written into a page. -/
def normalize (url : Text) : Text :=
  let p := parse url
  encode (format (if recodesHost p then { p with host := Punycode.toAscii p.host } else p))

/-- The bytes of the percent-encoded characters at the start of a text, and the text after them. -/
def takeBytes : Text → List Nat × Text
  | '%' :: a :: b :: rest =>
    match Text.hexDigit? a, Text.hexDigit? b with
    | some x, some y =>
      let (bytes, tail) := takeBytes rest
      ((x * 16 + y) :: bytes, tail)
    | _, _ => ([], '%' :: a :: b :: rest)
  | t => ([], t)

/-- The ASCII characters that stay encoded when an address is shown. -/
def keptMarks : List Char := [';', '/', '?', ':', '@', '&', '=', '+', '$', ',', '#', '%']

/-- The characters of a sequence of bytes that has the shape of a character, or replacement
characters when it encodes none. -/
def decodeGroup (bytes : List Nat) : Text :=
  match Utf8.decode bytes with
  | .ok t => t
  | .error _ => List.replicate bytes.length '\uFFFD'

/-- The text of percent-encoded bytes. A byte that does not fit becomes a replacement character. -/
def decodeBytes : List Nat → Text
  | [] => []
  | a :: rest =>
    let isNext := fun b : Nat => b / 64 = 2
    if a < 0x80 then
      (if keptMarks.contains (Char.ofNat a) then percentByte a else [Char.ofNat a]) ++
        decodeBytes rest
    else
      match rest with
      | b :: c :: d :: tail =>
        if a / 32 = 6 && isNext b then decodeGroup [a, b] ++ decodeBytes (c :: d :: tail)
        else if a / 16 = 14 && isNext b && isNext c then
          decodeGroup [a, b, c] ++ decodeBytes (d :: tail)
        else if a / 8 = 30 && isNext b && isNext c && isNext d then
          decodeGroup [a, b, c, d] ++ decodeBytes tail
        else '\uFFFD' :: decodeBytes (b :: c :: d :: tail)
      | [b, c] =>
        if a / 32 = 6 && isNext b then decodeGroup [a, b] ++ decodeBytes [c]
        else if a / 16 = 14 && isNext b && isNext c then decodeGroup [a, b, c]
        else '\uFFFD' :: decodeBytes [b, c]
      | [b] =>
        if a / 32 = 6 && isNext b then decodeGroup [a, b] else '\uFFFD' :: decodeBytes [b]
      | [] => ['\uFFFD']

/-- Decodes the percent-encoded characters of an address. The budget bounds the number of steps. -/
def decodeFrom : Nat → Text → Text
  | 0, t => t
  | _ + 1, [] => []
  | budget + 1, c :: rest =>
    let (bytes, tail) := takeBytes (c :: rest)
    if bytes.isEmpty then c :: decodeFrom budget rest
    else decodeBytes bytes ++ decodeFrom budget tail

/-- The form of an address in which it is shown to a reader. -/
def display (url : Text) : Text :=
  let p := parse url
  let t := format (if recodesHost p then { p with host := Punycode.toUnicode p.host } else p)
  decodeFrom t.length t

/-- Whether a link to an address is let through. -/
def isAllowed (url : Text) : Bool :=
  let url := (Text.trim url).map Char.toLower
  let starts := fun s : String => Text.startsWith url (Text.ofString s)
  if ["vbscript:", "javascript:", "file:", "data:"].any starts then
    ["data:image/gif;", "data:image/png;", "data:image/jpeg;", "data:image/webp;"].any starts
  else true

end MdxLocalization.Markdown.Address
