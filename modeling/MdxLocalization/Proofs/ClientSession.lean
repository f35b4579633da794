import MdxLocalization.Proofs.ServiceCalls

/-!
# Sessions of a client

A session is a run of calls on one client, each made on what the one before it left. A call that
fails leaves the client as it was, so the client of a session always holds the token of the last
login that succeeded. `Step.Obeys` says what that means for a call: a login sends one request without
a proof of who asks; every other call sends one with the token, or none at all where the project or
the token is missing; and a response that is no success refuses the call, whatever it holds.
-/

namespace MdxLocalization.Client

variable {α β : Type}

/-! ### Calls -/

/-- A call to a client. -/
inductive Call where
  | authenticate (userId userSecret : Text)
  | createJob (name : Text)
  | createBatch (fileUris : List Text) (jobUid : Text)
  | uploadFile (content fileUri batchUid : Text)
  | uploadPage (fileUri content jobUid : Text)

namespace Call

def isLogin : Call → Bool
  | .authenticate .. => true
  | _ => false

/-- The identifiers that a call is given. -/
def ids : Call → List Text
  | .authenticate .. | .createJob _ => []
  | .createBatch _ id | .uploadFile _ _ id | .uploadPage _ _ id => [id]

/-- Makes a call; the result is the client after it and what the call returns. -/
def make (c : Client) : Call → Run ServiceError (Client × Json)
  | .authenticate userId userSecret => do
    let c ← c.authenticate userId userSecret
    return (c, c.token)
  | .createJob name => do
    let id ← c.createJob name
    return (c, id)
  | .createBatch fileUris jobUid => do
    let id ← c.createBatch fileUris (.text jobUid)
    return (c, id)
  | .uploadFile content fileUri batchUid => do
    c.uploadFile content fileUri (.text batchUid)
    return (c, .null)
  | .uploadPage fileUri content jobUid => do
    c.uploadPage fileUri content (.text jobUid)
    return (c, .null)

end Call

/-! ### Sessions -/

/-- A call in a session: the client and the workspace that it found and left, and how it ended. -/
structure Step where
  call : Call
  client : Client
  before : Workspace
  outcome : Except ServiceError Json
  next : Client
  after : Workspace

/-- A call that fails leaves the client that made it. -/
def step (c : Client) (w : Workspace) (call : Call) : Step :=
  let ended := (call.make c w).1
  { call, client := c, before := w, outcome := ended.map Prod.snd
    next := (ended.map Prod.fst).toOption.getD c, after := (call.make c w).2 }

/-- The calls of a session, one after the other. -/
def session (c : Client) (w : Workspace) : List Call → List Step
  | [] => []
  | call :: rest => step c w call :: session (step c w call).next (step c w call).after rest

namespace Step

/-- What a login that succeeded returned. -/
def login? (s : Step) : Option Json := if s.call.isLogin then s.outcome.toOption else none

/-- The response to the request of a call, if it sends one. -/
def response (s : Step) : Response := s.before.respond s.before.requests.length

/-- A call sends exactly one request, with this proof of who asks. -/
def Sends (s : Step) (authorization : Option Text) : Prop :=
  ∃ request, s.after.requests = s.before.requests ++ [request] ∧
    request.authorization = authorization

/-- What a call does in a session of a configured client when the last login gave some token, which
is `null` before the first one. -/
structure Obeys (s : Step) (config : Config) (token : Json) : Prop where
  holds : s.client.token = token
  takes : s.next.token = s.login?.getD token
  unchanged : ∀ e, s.outcome = .error e → s.next = s.client
  login : s.call.isLogin = true → s.Sends none
  authorized : s.call.isLogin = false → ServiceSettings.isGiven config.service.projectId = true →
    token ≠ .null → s.Sends (some (Text.ofString "Bearer " ++ token.plainText))
  withheld : s.call.isLogin = false →
    ¬ (ServiceSettings.isGiven config.service.projectId = true ∧ token ≠ .null) →
    s.after.requests = s.before.requests ∧
      s.outcome = .error
        (if ServiceSettings.isGiven config.service.projectId then .noToken else .noProject)
  refused : s.after.requests ≠ s.before.requests → s.response.isSuccess = false →
    ∃ description message, s.outcome = .error (.refused description message s.response.status)

end Step

/-- The token after some calls, where `token` is the one before them. -/
def tokenAfter (token : Json) (steps : List Step) : Json :=
  ((steps.filterMap Step.login?).getLast?).getD token

theorem tokenAfter_cons (token : Json) (s : Step) (later : List Step) :
    tokenAfter token (s :: later) = tokenAfter (s.login?.getD token) later := by
  unfold tokenAfter
  cases given : s.login? with
  | none =>
      rw [List.filterMap_cons_none given]
      rfl
  | some value =>
      rw [List.filterMap_cons_some given, List.getLast?_cons]
      rfl

/-! ### What a call asks -/

/-- A judgement refuses every response that is no success, with its status. -/
def Refuses (judge : Response → Except ServiceError α) : Prop :=
  ∀ r, r.isSuccess = false →
    ∃ description message, judge r = .error (.refused description message r.status)

theorem refuses_judge (description : Text) : Refuses (judge description) := by
  intro r failed
  refine ⟨description, (errorMessage? r.content).getD r.phrase, ?_⟩
  rw [judge, if_neg (by simp [failed])]

theorem Refuses.bind {judge : Response → Except ServiceError α} (refuses : Refuses judge)
    (f : α → Except ServiceError β) : Refuses fun r => judge r >>= f := by
  intro r failed
  obtain ⟨description, message, refused⟩ := refuses r failed
  refine ⟨description, message, ?_⟩
  simp only [refused]
  rfl

/-- A call sends one request with this proof of who asks; a response that is no success refuses it,
and any other leaves the client that goes with what the call returns. -/
def AsksOnce (x : Run ServiceError (Client × Json)) (authorization : Option Text)
    (left : Json → Client) : Prop :=
  ∃ request judge, request.authorization = authorization ∧ Asks x request judge ∧ Refuses judge ∧
    ∀ r next value, judge r = .ok (next, value) → next = left value

theorem AsksOnce.of_asks {x : Run ServiceError α} {request : Request}
    {judge : Response → Except ServiceError α} {left : Json → Client} (asks : Asks x request judge)
    (refuses : Refuses judge) (result : α → Client × Json)
    (leaves : ∀ r a, judge r = .ok a → (result a).1 = left (result a).2) :
    AsksOnce (x >>= fun a => pure (result a)) request.authorization left := by
  refine ⟨_, _, rfl, asks.map result, refuses.bind _, fun r next value judged => ?_⟩
  cases outcome : judge r with
  | error e =>
      rw [outcome] at judged
      cases judged
  | ok a =>
      rw [outcome] at judged
      have same : result a = (next, value) := Except.ok.inj judged
      have left := leaves r a outcome
      rw [same] at left
      exact left

variable {c : Client} {w : Workspace} {call : Call}

theorem exists_of_judgeValue_ok {description : Text} {key : String} {use : Json → α} {r : Response}
    {a : α} (judged : judgeValue description key use r = .ok a) : ∃ value, a = use value := by
  unfold judgeValue at judged
  cases content : judge description r with
  | error e =>
      rw [content] at judged
      cases judged
  | ok j =>
      rw [content] at judged
      change (valueUnder key j).map use = .ok a at judged
      cases read : valueUnder key j with
      | error e =>
          rw [read] at judged
          cases judged
      | ok value =>
          rw [read] at judged
          exact ⟨value, (Except.ok.inj judged).symm⟩

theorem make_asksOnce_login (opened : c.closed = false) (login : call.isLogin = true) :
    AsksOnce (call.make c) none fun token => { c with token } := by
  cases call with
  | authenticate userId userSecret =>
      refine AsksOnce.of_asks (authenticate_asks opened userId userSecret)
        ((refuses_judge _).bind _) (fun next => (next, next.token)) fun r next judged => ?_
      obtain ⟨token, rfl⟩ := exists_of_judgeValue_ok judged
      rfl
  | createJob | createBatch | uploadFile | uploadPage =>
      cases login

theorem make_asksOnce_project {project token : Text} (ready : c.Ready project token)
    (plain : ∀ id ∈ call.ids, id.IsPlain) (other : call.isLogin = false) :
    AsksOnce (call.make c) (some (Text.ofString "Bearer " ++ token)) fun _ => c := by
  cases call with
  | authenticate =>
      cases other
  | createJob name =>
      exact AsksOnce.of_asks (ready.createJob_asks name) ((refuses_judge _).bind _)
        (fun id => (c, id)) fun _ _ _ => rfl
  | createBatch fileUris jobUid =>
      exact AsksOnce.of_asks (ready.createBatch_asks fileUris jobUid) ((refuses_judge _).bind _)
        (fun id => (c, id)) fun _ _ _ => rfl
  | uploadFile content fileUri batchUid =>
      have plainBatch : batchUid.IsPlain := plain batchUid (List.mem_singleton.mpr rfl)
      exact AsksOnce.of_asks (ready.uploadFile_asks content fileUri plainBatch)
        ((refuses_judge _).bind _) (fun _ => (c, .null)) fun _ _ _ => rfl
  | uploadPage fileUri content jobUid =>
      exact AsksOnce.of_asks (ready.uploadPage_asks fileUri content jobUid)
        ((refuses_judge _).bind _) (fun _ => (c, .null)) fun _ _ _ => rfl

/-- Without a project or a token nothing is sent. -/
theorem make_of_lacking (other : call.isLogin = false) {e : ServiceError}
    (lacking : (c.project >>= fun _ => c.authorization) = .error e) :
    call.make c w = (.error e, w) := by
  have posted (area : String) (resource : Text) (body : RequestBody) (description : Text) :
      c.postToProject area resource body description w = (.error e, w) := by
    unfold postToProject
    cases named : c.project with
    | error fault =>
        rw [named] at lacking
        cases lacking
        rfl
    | ok project =>
        rw [named] at lacking
        replace lacking : c.authorization = .error e := lacking
        rw [lacking]
        rfl
  cases call with
  | authenticate =>
      cases other
  | createJob | createBatch | uploadFile | uploadPage =>
      exact Run.bind_of_error (Run.bind_of_error (posted _ _ _ _))

/-! ### Steps and sessions -/

theorem step_of_ok {next : Client} {value : Json} (ended : (call.make c w).1 = .ok (next, value)) :
    (step c w call).outcome = .ok value ∧ (step c w call).next = next := by
  unfold step
  rw [ended]
  exact ⟨rfl, rfl⟩

theorem step_of_error {e : ServiceError} (ended : (call.make c w).1 = .error e) :
    (step c w call).outcome = .error e ∧ (step c w call).next = c := by
  unfold step
  rw [ended]
  exact ⟨rfl, rfl⟩

theorem step_of_asksOnce {authorization : Option Text} {left : Json → Client}
    (asks : AsksOnce (call.make c) authorization left) :
    (step c w call).Sends authorization ∧
      ((step c w call).response.isSuccess = false → ∃ description message,
        (step c w call).outcome =
          .error (.refused description message (step c w call).response.status)) ∧
      ((∃ e, (step c w call).outcome = .error e ∧ (step c w call).next = c) ∨
        ∃ value, (step c w call).outcome = .ok value ∧ (step c w call).next = left value) := by
  obtain ⟨request, judge, proof, asks, refuses, leaves⟩ := asks
  obtain ⟨judged, sent, -⟩ := asks w
  refine ⟨⟨request, sent, proof⟩, fun failed => ?_, ?_⟩
  · obtain ⟨description, message, refused⟩ := refuses (w.respond w.requests.length) failed
    exact ⟨description, message, (step_of_error (judged.trans refused)).1⟩
  · cases ended : judge (w.respond w.requests.length) with
    | error e =>
        exact .inl ⟨e, step_of_error (judged.trans ended)⟩
    | ok result =>
        obtain ⟨next, value⟩ := result
        obtain ⟨outcome, kept⟩ := step_of_ok (judged.trans ended)
        exact .inr ⟨value, outcome, kept.trans (leaves _ next value ended)⟩

theorem lacks_of_not_given
    (lacks : ¬ (ServiceSettings.isGiven c.settings.projectId = true ∧ c.token ≠ .null)) :
    (c.project >>= fun _ => c.authorization) =
      .error (if ServiceSettings.isGiven c.settings.projectId then .noToken else .noProject) := by
  unfold Client.project
  cases given : c.settings.projectId with
  | none =>
      rfl
  | some id =>
      cases id with
      | nil =>
          rfl
      | cons first rest =>
          have none : c.token = .null := by
            simpa [given, ServiceSettings.isGiven] using lacks
          unfold authorization
          rw [none]
          rfl

/-- A login asks without a proof of who asks, and only the token can change. -/
theorem step_obeys_login (config : Config) (opened : c.closed = false) (login : call.isLogin = true)
    (w : Workspace) :
    (step c w call).Obeys config c.token ∧ ∃ token, (step c w call).next = { c with token } := by
  obtain ⟨sends, refused, ended⟩ := step_of_asksOnce (w := w) (make_asksOnce_login opened login)
  have isLogin : (step c w call).login? = (step c w call).outcome.toOption := if_pos login
  have other : (step c w call).call.isLogin ≠ false := by
    simp [step, login]
  have obeys (takes : (step c w call).next.token = (step c w call).login?.getD c.token)
      (unchanged : ∀ e, (step c w call).outcome = .error e → (step c w call).next = c) :
      (step c w call).Obeys config c.token :=
    { holds := rfl, takes, unchanged
      login := fun _ => sends
      authorized := fun no => absurd no other
      withheld := fun no => absurd no other
      refused := fun _ => refused }
  rcases ended with ⟨e, outcome, kept⟩ | ⟨value, outcome, kept⟩
  · refine ⟨obeys ?_ fun _ _ => kept, c.token, kept⟩
    rw [isLogin, outcome, kept]
    rfl
  · refine ⟨obeys ?_ fun _ failed => ?_, value, kept⟩
    · rw [isLogin, outcome, kept]
      rfl
    · rw [outcome] at failed
      cases failed

section Others

variable {config : Config} (configured : c.settings = config.service)
  (other : call.isLogin = false)

include configured other

/-- With a project and a token every other call asks with the token. -/
theorem step_obeys_ready (opened : c.closed = false)
    (plainProject : ∀ id ∈ config.service.projectId, id.IsPlain)
    (plainToken : c.token.plainText.IsPlain) (plainIds : ∀ id ∈ call.ids, id.IsPlain)
    (able : ServiceSettings.isGiven config.service.projectId = true ∧ c.token ≠ .null)
    (w : Workspace) :
    (step c w call).Obeys config c.token ∧ (step c w call).next = c := by
  obtain ⟨project, given, named⟩ : ∃ id, config.service.projectId = some id ∧ id ≠ [] := by
    simpa [ServiceSettings.isGiven, Option.any_eq_true] using able.1
  have ready : c.Ready project c.token.plainText :=
    ⟨opened, configured ▸ given, named, plainProject project given, able.2, rfl, plainToken⟩
  obtain ⟨sends, refused, ended⟩ :=
    step_of_asksOnce (w := w) (make_asksOnce_project ready plainIds other)
  have kept : (step c w call).next = c := by
    rcases ended with ⟨_, -, kept⟩ | ⟨_, -, kept⟩ <;> exact kept
  have noLogin : (step c w call).login? = none := if_neg (by simp [step, other])
  refine ⟨{ holds := rfl, takes := ?_, unchanged := fun _ _ => kept, login := fun login => ?_,
            authorized := fun _ _ _ => sends, withheld := fun _ lacks => absurd able lacks,
            refused := fun _ => refused }, kept⟩
  · rw [noLogin, kept]
    rfl
  · exact absurd (other.symm.trans login) Bool.false_ne_true

/-- Without a project or a token every other call fails before anything is sent. -/
theorem step_obeys_lacking
    (lacks : ¬ (ServiceSettings.isGiven config.service.projectId = true ∧ c.token ≠ .null))
    (w : Workspace) :
    (step c w call).Obeys config c.token ∧ (step c w call).next = c := by
  have lacking := lacks_of_not_given (c := c) (configured ▸ lacks)
  have made := make_of_lacking (w := w) other lacking
  obtain ⟨outcome, kept⟩ := step_of_error (congrArg Prod.fst made)
  have silent : (step c w call).after = w := congrArg Prod.snd made
  have noLogin : (step c w call).login? = none := if_neg (by simp [step, other])
  refine ⟨{ holds := rfl, takes := ?_, unchanged := fun _ _ => kept, login := fun login => ?_,
            authorized := fun _ given loggedIn => absurd ⟨given, loggedIn⟩ lacks,
            withheld := fun _ _ => ⟨?_, ?_⟩, refused := fun sends => ?_ }, kept⟩
  · rw [noLogin, kept]
    rfl
  · exact absurd (other.symm.trans login) Bool.false_ne_true
  · rw [silent]
    rfl
  · rw [outcome, configured]
  · exact absurd (congrArg Workspace.requests silent) sends

end Others

/-- A call on an open client of the configuration obeys the rules and leaves such a client. -/
theorem step_obeys {config : Config} (opened : c.closed = false)
    (configured : c.settings = config.service)
    (plainProject : ∀ id ∈ config.service.projectId, id.IsPlain)
    (plainToken : c.token.plainText.IsPlain) (plainIds : ∀ id ∈ call.ids, id.IsPlain)
    (w : Workspace) :
    (step c w call).Obeys config c.token ∧ (step c w call).next.closed = false ∧
      (step c w call).next.settings = config.service := by
  cases login : call.isLogin with
  | true =>
      obtain ⟨obeys, token, left⟩ := step_obeys_login config opened login w
      rw [left]
      exact ⟨obeys, opened, configured⟩
  | false =>
      have outcome : (step c w call).Obeys config c.token ∧ (step c w call).next = c := by
        by_cases able : ServiceSettings.isGiven config.service.projectId = true ∧ c.token ≠ .null
        · exact step_obeys_ready configured login opened plainProject plainToken plainIds able w
        · exact step_obeys_lacking configured login able w
      obtain ⟨obeys, left⟩ := outcome
      rw [left]
      exact ⟨obeys, opened, configured⟩

/-- Every call of a session obeys the rules, with the token of the last login that succeeded. -/
theorem session_obeys_of_open {config : Config}
    (plainProject : ∀ id ∈ config.service.projectId, id.IsPlain) {calls : List Call}
    (plainIds : ∀ call ∈ calls, ∀ id ∈ call.ids, id.IsPlain) {c : Client} (opened : c.closed = false)
    (configured : c.settings = config.service) (w : Workspace)
    (plainTokens : ∀ s ∈ session c w calls, s.client.token.plainText.IsPlain) (i : Nat)
    (within : i < (session c w calls).length) :
    ((session c w calls)[i]).Obeys config (tokenAfter c.token ((session c w calls).take i)) := by
  induction calls generalizing c w i with
  | nil =>
      cases within
  | cons call rest hypothesis =>
      obtain ⟨plainFirst, plainRest⟩ := List.forall_mem_cons.mp plainIds
      obtain ⟨plainToken, plainLater⟩ := List.forall_mem_cons.mp plainTokens
      obtain ⟨obeys, stillOpen, stillConfigured⟩ :=
        step_obeys opened configured plainProject plainToken plainFirst w
      cases i with
      | zero =>
          exact obeys
      | succ i =>
          have later := hypothesis plainRest stillOpen stillConfigured
            (step c w call).after plainLater i (Nat.lt_of_succ_lt_succ within)
          have token : tokenAfter c.token ((session c w (call :: rest)).take (i + 1)) =
              tokenAfter (step c w call).next.token
                ((session (step c w call).next (step c w call).after rest).take i) := by
            rw [obeys.takes]
            exact tokenAfter_cons c.token (step c w call) _
          rw [token]
          exact later

theorem session_calls (c : Client) (w : Workspace) (calls : List Call) :
    (session c w calls).map Step.call = calls := by
  induction calls generalizing c w with
  | nil =>
      rfl
  | cons call rest hypothesis =>
      exact congrArg (call :: ·) (hypothesis _ _)

/-- The session of a new client makes all calls in order, and each obeys the rules with the token of
the last login before it that succeeded. -/
theorem session_obeys {config : Config} (plainProject : ∀ id ∈ config.service.projectId, id.IsPlain)
    {calls : List Call} (plainIds : ∀ call ∈ calls, ∀ id ∈ call.ids, id.IsPlain) (w : Workspace)
    (plainTokens : ∀ s ∈ session (ofConfig config) w calls, s.client.token.plainText.IsPlain) :
    let steps := session (ofConfig config) w calls
    steps.map Step.call = calls ∧
      ∀ i (within : i < steps.length), (steps[i]).Obeys config (tokenAfter .null (steps.take i)) :=
  ⟨session_calls _ _ _, session_obeys_of_open plainProject plainIds rfl rfl w plainTokens⟩

/-- A job before the login and one after it, then a login that is refused and a file. -/
theorem session_obeys_refused_login :
    let service : ServiceSettings := { ServiceSettings.standard with projectId := some ['p'] }
    let config : Config := ⟨['e', 'n'], [], [], false, none, service, .standard⟩
    let answer (i : Nat) : Response :=
      [⟨200, Json.write .spaced (.record [("response",
        .record [("data", .record [("accessToken", .text ['t'])])])])⟩, ⟨500, ['[', ']']⟩,
        ⟨401, ['"', 'x', '"']⟩].getD i ⟨202, []⟩
    let calls : List Call :=
      [.createJob ['n'], .authenticate ['u'] ['s'], .createJob ['n'], .authenticate ['u'] ['x'],
        .uploadFile ['c'] ['f'] ['b']]
    let steps := session (ofConfig config) { respond := answer } calls
    steps.map (·.outcome.isOk) = [false, true, false, false, true] ∧
      (steps.map Step.call = calls ∧ ∀ i (within : i < steps.length),
        (steps[i]).Obeys config (tokenAfter .null (steps.take i))) := by
  intro service config answer calls steps
  have plainTokens : steps.map (fun s => decide s.client.token.plainText.IsPlain) =
      [true, true, true, true, true] := by
    decide +kernel
  refine ⟨by decide +kernel, session_obeys (by decide) (by decide) { respond := answer } ?_⟩
  intro s member
  have plain := List.mem_map_of_mem (f := fun s => decide s.client.token.plainText.IsPlain) member
  rw [plainTokens] at plain
  simpa using plain

end MdxLocalization.Client
