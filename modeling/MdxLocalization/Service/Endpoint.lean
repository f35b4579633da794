import MdxLocalization.Text.Quoted
import MdxLocalization.Text.Utf8

/-!
# Addresses of the service

The address of a resource is the base address of the service with the path of the resource after it.
The base keeps its own path, the scheme and the host are in lower case, and a number behind the host
that the scheme has anyway is left out. What may not stand in a path or query is percent-encoded,
and points in the path are resolved. A control character has no place in an address at all.
-/

namespace MdxLocalization.Endpoint

/-- A control character in an address, and where it stands. -/
structure Fault where
  character : Char
  position : Nat
  deriving DecidableEq, Repr

/-- The message about a control character. -/
def Fault.message (f : Fault) : Text :=
  Text.ofString "Invalid non-printable ASCII character in URL, " ++ Text.quoted [f.character] ++
    Text.ofString " at position " ++ Text.ofNat f.position ++ ['.']

def isControl (c : Char) : Bool := c.toNat < 0x20 || c.toNat = 0x7F

def staysInQuery (c : Char) : Bool :=
  0x20 < c.toNat && c.toNat < 0x7F && !(['"', '#', '<', '>'].contains c)

def staysInPath (c : Char) : Bool :=
  staysInQuery c && !(['?', '\x60', '\x7b', '\x7d'].contains c)

/-- The percent-encoded form of a byte. -/
def percentByte (b : Nat) : Text := '%' :: (Text.hexPadded 2 b).map Char.toUpper

def quote (stays : Char → Bool) (t : Text) : Text :=
  t.flatMap fun c => if stays c then [c] else (Utf8.encodeChar c).flatMap percentByte

/-- The pieces of a path without the points in it; two points take the piece before them away, but
never the empty piece before a leading slash. -/
def resolvePoints (kept : List Text) : List Text → List Text
  | [] => kept.reverse
  | piece :: rest =>
    if piece = ['.'] then resolvePoints kept rest
    else if piece = ['.', '.'] then
      resolvePoints (if kept = [[]] then kept else kept.drop 1) rest
    else resolvePoints (piece :: kept) rest

def withoutPoints (path : Text) : Text :=
  Text.join ['/'] (resolvePoints [] (Text.splitOn '/' path))

/-- What stands before the first of some characters, and what stands from there on. -/
def splitBefore (stops : List Char) (t : Text) : Text × Text :=
  (t.takeWhile fun c => !stops.contains c, t.dropWhile fun c => !stops.contains c)

/-- A path and query in encoded form; a fragment is dropped. -/
def encodeTail (t : Text) : Text :=
  let (tail, _) := splitBefore ['#'] t
  let (path, query) := splitBefore ['?'] tail
  quote staysInPath path ++ (query.take 1) ++ quote staysInQuery (query.drop 1)

/-- The numbers behind the host that schemes have anyway. -/
def standardNumbers : List (String × String) :=
  [("ftp", "21"), ("http", "80"), ("https", "443"), ("ws", "80"), ("wss", "443")]

/-- Whether the number behind a host is the one that the scheme has anyway. -/
def isStandardNumber (scheme number : Text) : Bool :=
  (standardNumbers.lookup (Text.toString scheme)).any (Text.ofString · == number)

/-- The authority with its host in lower case, without a number that does not matter. -/
def authority (scheme raw : Text) : Text :=
  let host := (raw.reverse.takeWhile (· != '@')).reverse
  let user := raw.take (raw.length - host.length)
  let (name, number) := splitBefore [':'] (host.map Char.toLower)
  let number := number.drop 1
  user ++ name ++ if number.isEmpty || isStandardNumber scheme number then [] else ':' :: number

/-- The beginning of a base address, up to its path, and the rest. -/
def splitBase (base : Text) : Text × Text :=
  let (scheme, rest) := splitBefore [':', '/', '?', '#'] base
  let scheme := scheme.map Char.toLower
  match rest with
  | ':' :: '/' :: '/' :: rest =>
    let (raw, tail) := splitBefore ['/', '?', '#'] rest
    (scheme ++ [':', '/', '/'] ++ authority scheme raw, tail)
  | _ => ([], base)

/-- The address of a resource under a base address. -/
def under (base path : Text) : Except Fault Text :=
  match Text.findChar? isControl path with
  | some i => .error ⟨path.getD i '\x00', i⟩
  | none =>
    let (start, basePath) := splitBase base
    let basePath := encodeTail basePath
    let above := if Text.endsWith basePath ['/'] then basePath else basePath ++ ['/']
    let whole := above ++ (encodeTail path).dropWhile (· == '/')
    let (path, query) := splitBefore ['?'] whole
    .ok (start ++ withoutPoints path ++ query)

end MdxLocalization.Endpoint
