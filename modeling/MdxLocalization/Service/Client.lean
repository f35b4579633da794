import MdxLocalization.Config.Settings
import MdxLocalization.Workspace

/-!
# The client of the localization service

A client logs in with `authenticate`, which gives it a token, and proves with the token who it is in
every later request. A request is not sent when the project or the token is missing, when the token
or the address cannot be written, or when the client is closed; a response that is no success or
does not hold what was asked for is an error too. A failed request leaves the client as it was.
-/

namespace MdxLocalization

/-- Why a call to the service fails. -/
inductive ServiceError where
  | noProject
  | noToken
  /-- A character that cannot stand in a header: the text, and the run of such characters in it. -/
  | unsendable (header : Text) (first last : Nat)
  | badAddress (fault : Endpoint.Fault)
  | closed
  | refused (description message : Text) (status : Nat)
  | missingKey (key : String)
  /-- The response is built in another way. -/
  | otherShape
  deriving DecidableEq, Repr

namespace ServiceError

/-- The escaped form of a character beyond ASCII. -/
def escapedChar (c : Char) : Text :=
  let n := c.toNat
  if n ≤ 0xFF then '\\' :: 'x' :: Text.hexPadded 2 n
  else if n ≤ 0xFFFF then '\\' :: 'u' :: Text.hexPadded 4 n
  else '\\' :: 'U' :: Text.hexPadded 8 n

/-- The place of the characters that cannot be sent. -/
def unsendablePlace (header : Text) (first last : Nat) : Text :=
  if first = last then
    Text.ofString "character '" ++ escapedChar (header.getD first '\x00') ++
      Text.ofString "' in position " ++ Text.ofNat first
  else
    Text.ofString "characters in position " ++ Text.ofNat first ++ '-' :: Text.ofNat last

/-- The message of an error, where there is one. -/
def message? : ServiceError → Option Text
  | .noProject => some (Text.ofString "缺少 Smartling 项目 ID (MDX_L10N_SMARTLING__PROJECT_ID)。")
  | .noToken => some (Text.ofString "尚未完成 Smartling 认证。")
  | .unsendable header first last =>
    some (Text.ofString "'ascii' codec can't encode " ++ unsendablePlace header first last ++
      Text.ofString ": ordinal not in range(128)")
  | .badAddress fault => some fault.message
  | .closed => some (Text.ofString "Cannot send a request, as the client has been closed.")
  | .refused description message status =>
    some (Text.ofString "Failed " ++ description ++ Text.ofString ": " ++ message ++
      Text.ofString " (" ++ Text.ofNat status ++ [')'])
  | .missingKey key => some (Text.quoted (Text.ofString key))
  | .otherShape => none

end ServiceError

/-- A client of the localization service. -/
structure Client where
  settings : ServiceSettings
  targetLocales : List Text
  /-- The token from the last login, `null` before one. -/
  token : Json := .null
  closed : Bool := false
  deriving Repr

namespace Client

def ofConfig (c : Config) : Client := { settings := c.service, targetLocales := c.targetLocales }

def close (c : Client) : Client := { c with closed := true }

/-- The project, which has to be there and not empty. -/
def project (c : Client) : Except ServiceError Text :=
  match c.settings.projectId with
  | some id => if id.isEmpty then .error .noProject else .ok id
  | none => .error .noProject

/-- The header that proves who asks. -/
def authorization (c : Client) : Except ServiceError Text :=
  match c.token with
  | .null => .error .noToken
  | token => .ok (Text.ofString "Bearer " ++ token.plainText)

/-- Refuses a header with characters beyond ASCII. -/
def checkHeader (header : Text) : Except ServiceError Unit :=
  match Text.findChar? (fun c => 0x80 ≤ c.toNat) header with
  | none => .ok ()
  | some first =>
    let run := Text.countWhile (fun c => 0x80 ≤ c.toNat) (header.drop first)
    .error (.unsendable header first (first + run - 1))

/-- The message that a response without success carries, if it does. -/
def errorMessage? (content : Json) : Option Text := do
  match ← (← content.field? "response").field? "errors" with
  | .array (first :: _) => return (← first.field? "message").plainText
  | _ => none

/-- The content of a response, unless it is no success. -/
def accept (description : Text) (r : Response) : Run ServiceError Json := do
  let content := r.content
  if r.isSuccess then
    Run.log ⟨.info, .service, Text.ofString "✅ Successful " ++ description, []⟩
    return content
  else throw (.refused description ((errorMessage? content).getD r.phrase) r.status)

/-- A field that a response has to have. -/
def fieldOf (key : String) : Json → Except ServiceError Json
  | .object fields =>
    match Json.fieldOf? fields key with
    | some value => .ok value
    | none => .error (.missingKey key)
  | _ => .error .otherShape

def valueUnder (key : String) (content : Json) : Except ServiceError Json := do
  fieldOf key (← fieldOf "data" (← fieldOf "response" content))

/-- Sends a request and gives the content of the response. -/
def post (c : Client) (path : Text) (authorization : Option Text) (body : RequestBody)
    (description : Text) : Run ServiceError Json := do
  let address ← Run.ofExcept ((Endpoint.under c.settings.baseUrl path).mapError .badAddress)
  match authorization with
  | some header => Run.ofExcept (checkHeader header)
  | none => pure ()
  if c.closed then throw .closed
  accept description (← Run.send { address, authorization, body })

def projectPath (area : String) (project : Text) (resource : Text) : Text :=
  Text.ofString area ++ project ++ resource

def postToProject (c : Client) (area : String) (resource : Text) (body : RequestBody)
    (description : Text) : Run ServiceError Json := do
  let project ← Run.ofExcept c.project
  let header ← Run.ofExcept c.authorization
  c.post (projectPath area project resource) (some header) body description

/-- Logs in; the client after it has the token. -/
def authenticate (c : Client) (userId userSecret : Text) : Run ServiceError Client := do
  let content ← c.post (Text.ofString "/auth-api/v2/authenticate") none
    (.json (.record [("userIdentifier", .text userId), ("userSecret", .text userSecret)]))
    (Text.ofString "authentication with Smartling")
  return { c with token := ← Run.ofExcept (valueUnder "accessToken" content) }

/-- The form that a name of a job has: no longer than the service takes. -/
def jobName (c : Client) (name : Text) : Text := name.take c.settings.maxJobNameLength.toNat

/-- Creates a job and gives its identifier. -/
def createJob (c : Client) (name : Text) : Run ServiceError Json := do
  let content ← c.postToProject "/jobs-api/v3/projects/" (Text.ofString "/jobs")
    (.json (.record [("jobName", .text (c.jobName name)),
      ("targetLocaleIds", .array (c.targetLocales.map .text))]))
    (Text.ofString "job creation in Smartling")
  Run.ofExcept (valueUnder "translationJobUid" content)

def createBatch (c : Client) (fileUris : List Text) (jobUid : Json) : Run ServiceError Json := do
  let content ← c.postToProject "/job-batches-api/v2/projects/" (Text.ofString "/batches")
    (.json (.record [("authorize", .bool false), ("translationJobUid", jobUid),
      ("fileUris", .array (fileUris.map .text))]))
    (Text.ofString "batch creation for job in Smartling")
  Run.ofExcept (valueUnder "batchUid" content)

/-- Uploads a file of texts to a batch. -/
def uploadFile (c : Client) (content fileUri : Text) (batchUid : Json) : Run ServiceError Unit := do
  let _ ← c.postToProject "/job-batches-api/v2/projects/"
    (Text.ofString "/batches/" ++ batchUid.plainText ++ Text.ofString "/file")
    (.form ([.field "fileUri" fileUri, .field "fileType" (Text.ofString "json")] ++
      c.targetLocales.map (.field "localeIdsToAuthorize[]" ·) ++
      [.file "file" fileUri "application/json" content]))
    (Text.ofString "file upload to batch for " ++ fileUri)

/-- A JSON text with every character beyond ASCII escaped. -/
def asciiOnly (t : Text) : Text :=
  t.flatMap fun c =>
    let n := c.toNat
    let escape := fun n => '\\' :: 'u' :: Text.hexPadded 4 n
    if n < 0x80 then [c]
    else if n < 0x10000 then escape n
    else escape (0xD800 + (n - 0x10000) / 0x400) ++ escape (0xDC00 + (n - 0x10000) % 0x400)

/-- Uploads the page that shows the texts of a file in their context. -/
def uploadPage (c : Client) (fileUri content : Text) (jobUid : Json) :
    Run ServiceError Unit := do
  let matching : Json := .record [("translationJobUids", .array [jobUid])]
  let _ ← c.postToProject "/context-api/v2/projects/"
    (Text.ofString "/contexts/upload-and-match-async")
    (.form [.field "name" fileUri,
      .field "matchParams" (asciiOnly (matching.write .spaced)),
      .file "content" fileUri "text/html" content])
    (Text.ofString "context upload for " ++ fileUri)

end Client

end MdxLocalization
