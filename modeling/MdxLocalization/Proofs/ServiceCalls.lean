import MdxLocalization.Proofs.RunEffects

/-!
# Calls to the service

A call of the client, if it can be made at all, sends one request and judges the response to it by
itself. `Asks` says so, with the request and the judgement spelled out. A call can be made when the
client is open, the project and the token are there, and what goes into the address and the header
is printable ASCII, as identifiers and tokens of the service are.
-/

namespace MdxLocalization

namespace Text

/-- A text of ASCII letters, digits, hyphens, underscores and points. -/
def IsPlain (t : Text) : Prop := ∀ c ∈ t, c.isAlphanum = true ∨ c ∈ ['-', '_', '.']

/-- A text of ASCII characters without control characters. -/
def IsPrintable (t : Text) : Prop := ∀ c ∈ t, 0x20 ≤ c.toNat ∧ c.toNat < 0x7F

instance (t : Text) : Decidable t.IsPlain :=
  List.decidableBAll (fun c : Char => c.isAlphanum = true ∨ c ∈ ['-', '_', '.']) t

instance (t : Text) : Decidable t.IsPrintable :=
  List.decidableBAll (fun c : Char => 0x20 ≤ c.toNat ∧ c.toNat < 0x7F) t

theorem IsPlain.printable {t : Text} (plain : t.IsPlain) : t.IsPrintable := by
  intro c member
  rcases plain c member with alphanum | mark
  · change ((decide ('A'.val ≤ c.val ∧ c.val ≤ 'Z'.val) ||
      (decide ('a'.val ≤ c.val) && decide (c.val ≤ 'z'.val))) ||
      (decide ('0'.val ≤ c.val) && decide (c.val ≤ '9'.val))) = true at alphanum
    simp only [Bool.or_eq_true, Bool.and_eq_true, decide_eq_true_eq, UInt32.le_iff_toNat_le]
      at alphanum
    change 0x20 ≤ c.val.toNat ∧ c.val.toNat < 0x7F
    have bounds : (65 ≤ c.val.toNat ∧ c.val.toNat ≤ 90 ∨ 97 ≤ c.val.toNat ∧ c.val.toNat ≤ 122) ∨
        48 ≤ c.val.toNat ∧ c.val.toNat ≤ 57 := alphanum
    omega
  · simp only [List.mem_cons, List.not_mem_nil, or_false] at mark
    rcases mark with rfl | rfl | rfl <;> decide

theorem IsPrintable.append {t u : Text} (first : t.IsPrintable) (second : u.IsPrintable) :
    IsPrintable (t ++ u) :=
  List.forall_mem_append.mpr ⟨first, second⟩

theorem findChar?_eq_none {p : Char → Bool} {t : Text} (none : ∀ c ∈ t, p c = false) :
    findChar? p t = .none := by
  induction t with
  | nil =>
      rfl
  | cons c rest hypothesis =>
      obtain ⟨head, tail⟩ := List.forall_mem_cons.mp none
      rw [findChar?, hypothesis tail]
      simp [head]

end Text

namespace Endpoint

/-- The address of a resource whose path holds no control character. -/
def address (base path : Text) : Text := (under base path).toOption.getD []

theorem under_eq_ok {path : Text} (printable : path.IsPrintable) (base : Text) :
    under base path = .ok (address base path) := by
  have noControl : Text.findChar? isControl path = none := by
    refine Text.findChar?_eq_none fun c member => ?_
    have bounds := printable c member
    simp only [isControl, Bool.or_eq_false_iff, decide_eq_false_iff_not]
    omega
  have found : ∃ whole, under base path = .ok whole := by
    unfold under
    rw [noControl]
    exact ⟨_, rfl⟩
  obtain ⟨whole, same⟩ := found
  unfold address
  rw [same]
  rfl

end Endpoint

namespace Client

variable {α β : Type} {c : Client} {project token : Text}

/-! ### One request and its response -/

/-- A run sends one request and ends as its judgement of the response says. -/
def Asks (x : Run ServiceError α) (request : Request)
    (judge : Response → Except ServiceError α) : Prop :=
  ∀ w, (x w).1 = judge (w.respond w.requests.length) ∧
    (x w).2.requests = w.requests ++ [request] ∧ (x w).2.respond = w.respond

theorem Asks.bind_ofExcept {x : Run ServiceError α} {request : Request}
    {judge : Response → Except ServiceError α} (asks : Asks x request judge)
    (f : α → Except ServiceError β) :
    Asks (x >>= fun a => Run.ofExcept (f a)) request fun r => judge r >>= f := by
  intro w
  obtain ⟨judged, sent, same⟩ := asks w
  cases outcome : x w with
  | mk ended after =>
      rw [outcome] at judged sent same
      cases ended with
      | error e =>
          rw [Run.bind_of_error outcome]
          exact ⟨congrArg (· >>= f) judged, sent, same⟩
      | ok a =>
          rw [Run.bind_of_ok outcome, Run.ofExcept_apply]
          exact ⟨congrArg (· >>= f) judged, sent, same⟩

theorem Asks.map {x : Run ServiceError α} {request : Request}
    {judge : Response → Except ServiceError α} (asks : Asks x request judge) (f : α → β) :
    Asks (x >>= fun a => pure (f a)) request fun r => judge r >>= fun a => pure (f a) :=
  asks.bind_ofExcept fun a => .ok (f a)

/-- The judgement of every call: the content of a success, or a refusal with the status. -/
def judge (description : Text) (r : Response) : Except ServiceError Json :=
  if r.isSuccess then .ok r.content
  else .error (.refused description ((errorMessage? r.content).getD r.phrase) r.status)

/-- The judgement of a call that makes something of a value in the content. -/
def judgeValue (description : Text) (key : String) (use : Json → α) (r : Response) :
    Except ServiceError α :=
  judge description r >>= fun content => (valueUnder key content).map use

theorem judgeValue_id (description : Text) (key : String) :
    judgeValue description key id = fun r => judge description r >>= valueUnder key := by
  funext r
  unfold judgeValue
  congr
  funext content
  cases valueUnder key content <;> rfl

theorem checkHeader_eq_ok {header : Text} (printable : header.IsPrintable) :
    checkHeader header = .ok () := by
  have ascii : Text.findChar? (fun c => 0x80 ≤ c.toNat) header = none := by
    refine Text.findChar?_eq_none fun c member => ?_
    have bounds := printable c member
    simp only [decide_eq_false_iff_not]
    omega
  unfold checkHeader
  rw [ascii]

theorem send_asks (request : Request) (description : Text) :
    Asks (Run.send request >>= accept description) request (judge description) := by
  intro w
  let sent : Workspace := { w with requests := w.requests ++ [request] }
  have step : (Run.send request : Run ServiceError Response) w =
      (.ok (w.respond w.requests.length), sent) := rfl
  rw [Run.bind_of_ok step]
  unfold accept judge
  split
  · exact ⟨rfl, rfl, rfl⟩
  · exact ⟨rfl, rfl, rfl⟩

theorem post_asks (opened : c.closed = false) {path : Text} (printable : path.IsPrintable)
    {authorization : Option Text} (sendable : ∀ header ∈ authorization, header.IsPrintable)
    (body : RequestBody) (description : Text) :
    Asks (c.post path authorization body description)
      { address := Endpoint.address c.settings.baseUrl path, authorization, body }
      (judge description) := by
  intro w
  have address : Run.ofExcept ((Endpoint.under c.settings.baseUrl path).mapError
      ServiceError.badAddress) w = (.ok (Endpoint.address c.settings.baseUrl path), w) :=
    Run.ofExcept_mapError_ok (Endpoint.under_eq_ok printable _)
  have sends : c.post path authorization body description w =
      (Run.send ⟨Endpoint.address c.settings.baseUrl path, authorization, body⟩ >>=
        accept description) w := by
    unfold post
    rw [Run.bind_of_ok address]
    cases authorization with
    | none =>
        simp only [opened]
        rfl
    | some header =>
        have checked : Run.ofExcept (checkHeader header) w = (.ok (), w) := by
          rw [Run.ofExcept_apply, checkHeader_eq_ok (sendable header rfl)]
        simp only [Run.bind_of_ok checked, opened]
        rfl
  rw [sends]
  exact send_asks _ description w

/-! ### Requests -/

/-- The request that logs in. -/
def loginRequest (c : Client) (userId userSecret : Text) : Request :=
  { address := Endpoint.address c.settings.baseUrl (Text.ofString "/auth-api/v2/authenticate")
    authorization := none
    body := .json (.record [("userIdentifier", .text userId), ("userSecret", .text userSecret)]) }

/-- A request for a resource of the project, with the token. -/
def projectRequest (c : Client) (project token : Text) (area : String) (resource : Text)
    (body : RequestBody) : Request :=
  { address := Endpoint.address c.settings.baseUrl (projectPath area project resource)
    authorization := some (Text.ofString "Bearer " ++ token)
    body }

/-- The request that creates a job for all target locales. -/
def jobRequest (c : Client) (project token name : Text) : Request :=
  c.projectRequest project token "/jobs-api/v3/projects/" (Text.ofString "/jobs")
    (.json (.record [("jobName", .text (name.take c.settings.maxJobNameLength.toNat)),
      ("targetLocaleIds", .array (c.targetLocales.map .text))]))

/-- The request that creates a batch of files for a job. -/
def batchRequest (c : Client) (project token jobUid : Text) (fileUris : List Text) : Request :=
  c.projectRequest project token "/job-batches-api/v2/projects/" (Text.ofString "/batches")
    (.json (.record [("authorize", .bool false), ("translationJobUid", .text jobUid),
      ("fileUris", .array (fileUris.map .text))]))

/-- The request that uploads the texts of a file to a batch. -/
def fileRequest (c : Client) (project token batchUid fileUri content : Text) : Request :=
  c.projectRequest project token "/job-batches-api/v2/projects/"
    (Text.ofString "/batches/" ++ batchUid ++ Text.ofString "/file")
    (.form ([.field "fileUri" fileUri, .field "fileType" (Text.ofString "json")] ++
      c.targetLocales.map (.field "localeIdsToAuthorize[]" ·) ++
      [.file "file" fileUri "application/json" content]))

/-- The request that uploads the page of a file for a job. -/
def pageRequest (c : Client) (project token jobUid fileUri content : Text) : Request :=
  let matching : Json := .record [("translationJobUids", .array [.text jobUid])]
  c.projectRequest project token "/context-api/v2/projects/"
    (Text.ofString "/contexts/upload-and-match-async")
    (.form [.field "name" fileUri, .field "matchParams" (asciiOnly (matching.write .spaced)),
      .file "content" fileUri "text/html" content])

/-! ### Calls -/

/-- A client can make calls for a project with a token. -/
structure Ready (c : Client) (project token : Text) : Prop where
  opened : c.closed = false
  hasProject : c.settings.projectId = some project
  named : project ≠ []
  plainProject : project.IsPlain
  loggedIn : c.token ≠ .null
  spelled : c.token.plainText = token
  plainToken : token.IsPlain

theorem project_eq_ok (given : c.settings.projectId = some project) (named : project ≠ []) :
    c.project = .ok project := by
  unfold Client.project
  simp [given, named]

theorem authorization_eq_ok (loggedIn : c.token ≠ .null) :
    c.authorization = .ok (Text.ofString "Bearer " ++ c.token.plainText) := by
  unfold authorization
  split
  · rename_i none
    exact absurd none loggedIn
  · rfl

theorem authenticate_asks (opened : c.closed = false) (userId userSecret : Text) :
    Asks (c.authenticate userId userSecret) (c.loginRequest userId userSecret)
      (judgeValue (Text.ofString "authentication with Smartling") "accessToken"
        fun token => { c with token }) := by
  have printable : (Text.ofString "/auth-api/v2/authenticate").IsPrintable := by
    decide
  have bare : ∀ header ∈ (none : Option Text), header.IsPrintable := by
    simp
  have posted := post_asks opened printable bare
    (.json (.record [("userIdentifier", .text userId), ("userSecret", .text userSecret)]))
    (Text.ofString "authentication with Smartling")
  have asks := posted.bind_ofExcept fun content =>
    (valueUnder "accessToken" content).map fun token => { c with token }
  have same : c.authenticate userId userSecret = c.post
      (Text.ofString "/auth-api/v2/authenticate") none
      (.json (.record [("userIdentifier", .text userId), ("userSecret", .text userSecret)]))
      (Text.ofString "authentication with Smartling") >>= fun content =>
        Run.ofExcept ((valueUnder "accessToken" content).map fun token => { c with token }) := by
    unfold authenticate
    congr
    funext content
    cases valueUnder "accessToken" content <;> rfl
  rw [same]
  exact asks

section Calls

variable (ready : c.Ready project token)

include ready

theorem Ready.postToProject_asks {area : String} (printable : (Text.ofString area).IsPrintable)
    {resource : Text} (plain : resource.IsPrintable) (body : RequestBody) (description : Text) :
    Asks (c.postToProject area resource body description)
      (c.projectRequest project token area resource body) (judge description) := by
  have found : c.project = .ok project := project_eq_ok ready.hasProject ready.named
  have header : c.authorization = .ok (Text.ofString "Bearer " ++ token) := by
    rw [authorization_eq_ok ready.loggedIn, ready.spelled]
  have bearer : Text.IsPrintable (Text.ofString "Bearer ") := by
    decide
  have same : c.postToProject area resource body description =
      c.post (projectPath area project resource) (some (Text.ofString "Bearer " ++ token)) body
        description := by
    unfold postToProject
    rw [found, header]
    rfl
  rw [same]
  refine post_asks ready.opened ((printable.append ready.plainProject.printable).append plain) ?_
    body description
  rintro _ ⟨⟩
  exact bearer.append ready.plainToken.printable

theorem Ready.createJob_asks (name : Text) :
    Asks (c.createJob name) (c.jobRequest project token name)
      (judgeValue (Text.ofString "job creation in Smartling") "translationJobUid" id) := by
  rw [judgeValue_id]
  exact (ready.postToProject_asks (by decide) (by decide) _ _).bind_ofExcept _

theorem Ready.createBatch_asks (fileUris : List Text) (jobUid : Text) :
    Asks (c.createBatch fileUris (.text jobUid)) (c.batchRequest project token jobUid fileUris)
      (judgeValue (Text.ofString "batch creation for job in Smartling") "batchUid" id) := by
  rw [judgeValue_id]
  exact (ready.postToProject_asks (by decide) (by decide) _ _).bind_ofExcept _

theorem Ready.uploadFile_asks (content fileUri : Text) {batchUid : Text}
    (plain : batchUid.IsPlain) :
    Asks (c.uploadFile content fileUri (.text batchUid))
      (c.fileRequest project token batchUid fileUri content) fun r =>
        judge (Text.ofString "file upload to batch for " ++ fileUri) r >>= fun _ => pure () := by
  have before : Text.IsPrintable (Text.ofString "/batches/") := by
    decide
  have behind : Text.IsPrintable (Text.ofString "/file") := by
    decide
  exact (ready.postToProject_asks (by decide) ((before.append plain.printable).append behind)
    _ _).map fun _ => ()

theorem Ready.uploadPage_asks (fileUri content jobUid : Text) :
    Asks (c.uploadPage fileUri content (.text jobUid))
      (c.pageRequest project token jobUid fileUri content) fun r =>
        judge (Text.ofString "context upload for " ++ fileUri) r >>= fun _ => pure () :=
  (ready.postToProject_asks (by decide) (by decide) _ _).map fun _ => ()

end Calls

end Client

end MdxLocalization
