import MdxLocalization.Json.Printer
import MdxLocalization.Json.Reader
import MdxLocalization.Service.Endpoint

/-!
# Requests and responses

Requests to the service carry JSON or a form of several parts. A response has a status and a text;
a text that is no JSON counts as an empty object. Statuses from 200 to 299 mean success, and every
registered status has a phrase.
-/

namespace MdxLocalization

/-- A part of a form. -/
structure FormPart where
  headers : List Text
  body : Text
  deriving DecidableEq, Repr

/-- What a request carries. -/
inductive RequestBody where
  | json (value : Json)
  | form (parts : List FormPart)
  deriving Repr

/-- A request to the service. -/
structure Request where
  address : Text
  /-- The proof of who asks, where the request needs one. -/
  authorization : Option Text
  body : RequestBody
  deriving Repr

def Request.method : String := "POST"

/-- A response of the service. -/
structure Response where
  status : Nat
  text : Text
  deriving DecidableEq, Repr

namespace FormPart

/-- A character of a name in the headers of a part. -/
def escapeNameChar (c : Char) : Text :=
  if c = '"' then ['%', '2', '2']
  else if c = '\\' then ['\\', '\\']
  else if c.toNat < 0x20 && c.toNat != 0x1B then Endpoint.percentByte c.toNat
  else [c]

/-- A parameter of a header. -/
def parameter (name : String) (value : Text) : Text :=
  Text.ofString name ++ '=' :: '"' :: value.flatMap escapeNameChar ++ ['"']

/-- The header that says what a part is. -/
def disposition (name : String) : Text :=
  Text.ofString "Content-Disposition: form-data; " ++ parameter "name" (Text.ofString name)

def field (name : String) (value : Text) : FormPart := ⟨[disposition name], value⟩

/-- A part that is a file; an empty name of a file is left out. -/
def file (name : String) (fileName : Text) (contentType : String) (content : Text) : FormPart :=
  let named := if fileName.isEmpty then [] else ';' :: ' ' :: parameter "filename" fileName
  ⟨[disposition name ++ named, Text.ofString "Content-Type: " ++ Text.ofString contentType],
    content⟩

end FormPart

namespace Response

def isSuccess (r : Response) : Bool := 200 ≤ r.status && r.status < 300

/-- The JSON of a response; a byte order mark before it does not matter. -/
def content (r : Response) : Json :=
  let text :=
    match r.text with
    | '\ufeff' :: rest => rest
    | text => text
  match Json.read text with
  | .ok j => j
  | .error _ => .object []

/-- The phrases of the registered statuses. -/
def phrases : List (Nat × String) :=
  [
    (100, "Continue"), (101, "Switching Protocols"), (102, "Processing"), (103, "Early Hints"),
    (200, "OK"), (201, "Created"), (202, "Accepted"), (203, "Non-Authoritative Information"),
    (204, "No Content"), (205, "Reset Content"), (206, "Partial Content"), (207, "Multi-Status"),
    (208, "Already Reported"), (226, "IM Used"), (300, "Multiple Choices"),
    (301, "Moved Permanently"), (302, "Found"), (303, "See Other"), (304, "Not Modified"),
    (305, "Use Proxy"), (307, "Temporary Redirect"), (308, "Permanent Redirect"),
    (400, "Bad Request"), (401, "Unauthorized"), (402, "Payment Required"), (403, "Forbidden"),
    (404, "Not Found"), (405, "Method Not Allowed"), (406, "Not Acceptable"),
    (407, "Proxy Authentication Required"), (408, "Request Timeout"), (409, "Conflict"),
    (410, "Gone"), (411, "Length Required"), (412, "Precondition Failed"),
    (413, "Request Entity Too Large"), (414, "Request-URI Too Long"),
    (415, "Unsupported Media Type"), (416, "Requested Range Not Satisfiable"),
    (417, "Expectation Failed"), (418, "I'm a teapot"), (421, "Misdirected Request"),
    (422, "Unprocessable Entity"), (423, "Locked"), (424, "Failed Dependency"),
    (425, "Too Early"), (426, "Upgrade Required"), (428, "Precondition Required"),
    (429, "Too Many Requests"), (431, "Request Header Fields Too Large"),
    (451, "Unavailable For Legal Reasons"), (500, "Internal Server Error"),
    (501, "Not Implemented"), (502, "Bad Gateway"), (503, "Service Unavailable"),
    (504, "Gateway Timeout"), (505, "HTTP Version Not Supported"),
    (506, "Variant Also Negotiates"), (507, "Insufficient Storage"), (508, "Loop Detected"),
    (510, "Not Extended"), (511, "Network Authentication Required")]

/-- What a status means in words. -/
def phrase (r : Response) : Text :=
  Text.ofString ((phrases.lookup r.status).getD "unknown error")

end Response

end MdxLocalization
