import MdxLocalization.Proofs.ExtractionSteps
import MdxLocalization.Proofs.ServiceCalls
import MdxLocalization.Proofs.UpdateOutcome
import MdxLocalization.Workflow.Upload

/-!
# The protocol of an upload

An upload extracts all documents and then works through a plan of requests: the login, the job, the
batch that names all documents, and for each document its payload and its page. The first three
responses hold the token and the identifiers that the later requests carry. The plan is worked
through in order until a response is no success or lacks what it should hold; what has been sent is
therefore always a beginning of the plan.
-/

namespace MdxLocalization

/-- A request, and the field under which the response has to hold an identifier, if there is one. -/
structure Exchange where
  request : Request
  key : Option String

namespace Response

/-- The identifier that a response holds under a key. -/
def identifier? (r : Response) (key : String) : Option Text :=
  match Client.valueUnder key r.content with
  | .ok (.text t) => some t
  | _ => none

/-- A success that holds the identifier it should hold. -/
def satisfies (r : Response) (key : Option String) : Bool :=
  r.isSuccess && key.all fun name => (r.identifier? name).isSome

/-- What a response holds under a key, if anything, is an identifier of plain characters. -/
def Proper (r : Response) (key : String) : Prop :=
  ∀ value, Client.valueUnder key r.content = .ok value → ∃ t, value = .text t ∧ t.IsPlain

theorem Proper.identifier {r : Response} {key : String} (proper : r.Proper key) :
    Text.IsPlain ((r.identifier? key).getD []) := by
  unfold identifier?
  split
  · rename_i t read
    obtain ⟨_, ⟨⟩, plain⟩ := proper _ read
    exact plain
  · exact List.forall_mem_nil _

theorem proper_of_identifier? {r : Response} {key : String} {t : Text}
    (present : r.identifier? key = some t) (plain : t.IsPlain) : r.Proper key := by
  intro value read
  unfold identifier? at present
  rw [read] at present
  cases value <;> cases present
  exact ⟨_, rfl, plain⟩

end Response

namespace Upload

variable {α β : Type} {w : Workspace} {exchanges : List Exchange} {exchange : Exchange}

/-! ### Working through a plan -/

/-- The requests of a plan that are made, where the next one is the `n`-th, and the response that
puts an end to them before the plan does. -/
def progress (respond : Nat → Response) (n : Nat) : List Exchange → List Request × Option Response
  | [] => ([], none)
  | exchange :: rest =>
    if (respond n).satisfies exchange.key then
      let later := progress respond (n + 1) rest
      (exchange.request :: later.1, later.2)
    else ([exchange.request], some (respond n))

/-- An error that a response leads to; a response without success is refused with its status. -/
def FailsAt (r : Response) (e : ServiceError) : Prop :=
  r.isSuccess = false → ∃ description message, e = .refused description message r.status

/-- A run makes one exchange and gives a value if the response satisfies it. -/
structure Makes (x : Run ServiceError α) (w : Workspace) (exchange : Exchange) (a : α) : Prop where
  requests : (x w).2.requests = w.requests ++ [exchange.request]
  respond : (x w).2.respond = w.respond
  satisfied : (w.respond w.requests.length).satisfies exchange.key = true → (x w).1 = .ok a
  unsatisfied : (w.respond w.requests.length).satisfies exchange.key = false →
    ∃ e, (x w).1 = .error e ∧ FailsAt (w.respond w.requests.length) e

/-- A run works through a plan and gives a value if it gets to the end. -/
structure WorksThrough (x : Run ServiceError α) (w : Workspace) (exchanges : List Exchange)
    (a : α) : Prop where
  requests : (x w).2.requests = w.requests ++ (progress w.respond w.requests.length exchanges).1
  finished : (progress w.respond w.requests.length exchanges).2 = none → (x w).1 = .ok a
  stopped : ∀ r, (progress w.respond w.requests.length exchanges).2 = some r →
    ∃ e, (x w).1 = .error e ∧ FailsAt r e

theorem worksThrough_pure (a : α) : WorksThrough (pure a) w [] a where
  requests := (List.append_nil w.requests).symm
  finished := fun _ => rfl
  stopped := by
    rintro r ⟨⟩

/-- An exchange, and the rest of the plan if its response satisfies it. -/
theorem Makes.bind {x : Run ServiceError α} {f : α → Run ServiceError β} {a : α} {b : β}
    (first : Makes x w exchange a)
    (later : ∀ w', w'.respond = w.respond → w'.requests = w.requests ++ [exchange.request] →
      (w.respond w.requests.length).satisfies exchange.key = true →
      WorksThrough (f a) w' exchanges b) : WorksThrough (x >>= f) w (exchange :: exchanges) b := by
  obtain ⟨requests, respond, satisfied, unsatisfied⟩ := first
  cases outcome : x w with
  | mk ended after =>
      rw [outcome] at requests respond satisfied unsatisfied
      cases met : (w.respond w.requests.length).satisfies exchange.key with
      | true =>
          obtain rfl : ended = .ok a := satisfied met
          have place : after.requests.length = w.requests.length + 1 := by
            rw [requests, List.length_append]
            rfl
          have remaining : progress after.respond after.requests.length exchanges =
              progress w.respond (w.requests.length + 1) exchanges := by
            rw [place, show after.respond = w.respond from respond]
          have rest := later after respond requests met
          obtain ⟨sent, finished, stopped⟩ := rest
          rw [remaining] at sent finished stopped
          have continued := Run.bind_of_ok (f := f) outcome
          constructor
          · rw [continued, progress, if_pos met, sent, requests, List.append_assoc]
            rfl
          · rw [continued, progress, if_pos met]
            exact finished
          · rw [continued, progress, if_pos met]
            exact stopped
      | false =>
          obtain ⟨e, rfl, fails⟩ := unsatisfied met
          have ended := Run.bind_of_error (f := f) outcome
          constructor
          · rw [ended, progress, if_neg (by simp [met])]
            exact requests
          · rw [progress, if_neg (by simp [met])]
            rintro ⟨⟩
          · rw [progress, if_neg (by simp [met]), ended]
            rintro r ⟨⟩
            exact ⟨e, rfl, fails⟩

/-! ### Calls as exchanges -/

/-- A call whose response need not hold anything. -/
theorem makes_of_asks {x : Run ServiceError Unit} {request : Request} {description : Text}
    (asks : Client.Asks x request fun r => Client.judge description r >>= fun _ => pure ()) :
    Makes x w ⟨request, none⟩ () := by
  obtain ⟨judged, sent, same⟩ := asks w
  refine ⟨sent, same, fun met => ?_, fun unmet => ?_⟩
  · have success : (w.respond w.requests.length).isSuccess = true := by
      simpa [Response.satisfies] using met
    simp only [judged, Client.judge, success]
    rfl
  · have failure : (w.respond w.requests.length).isSuccess = false := by
      simpa [Response.satisfies] using unmet
    simp only [judged, Client.judge, failure]
    exact ⟨_, rfl, fun _ => ⟨_, _, rfl⟩⟩

/-- A call that needs the identifier in its response. -/
theorem makes_of_asks_identifier {x : Run ServiceError α} {request : Request}
    {description : Text} {key : String} {use : Json → α} {r : Response}
    (asks : Client.Asks x request (Client.judgeValue description key use))
    (answered : w.respond w.requests.length = r) (proper : r.Proper key) :
    Makes x w ⟨request, some key⟩ (use (.text ((r.identifier? key).getD []))) := by
  obtain ⟨judged, sent, same⟩ := asks w
  rw [answered] at judged
  refine ⟨sent, same, fun met => ?_, fun unmet => ?_⟩ <;> rw [answered] at *
  · have held : r.isSuccess = true ∧ (r.identifier? key).isSome = true := by
      simpa [Response.satisfies] using met
    obtain ⟨id, present⟩ := Option.isSome_iff_exists.mp held.2
    have value : Client.valueUnder key r.content = .ok (.text id) := by
      unfold Response.identifier? at present
      split at present
      · rename_i t read
        cases present
        exact read
      · cases present
    simp only [judged, Client.judgeValue, Client.judge, held.1, present]
    change (Client.valueUnder key r.content).map use = _
    rw [value]
    rfl
  · cases success : r.isSuccess with
    | false =>
        simp only [judged, Client.judgeValue, Client.judge, success]
        exact ⟨_, rfl, fun _ => ⟨_, _, rfl⟩⟩
    | true =>
        simp only [judged, Client.judgeValue, Client.judge, success]
        cases read : Client.valueUnder key r.content with
        | error e =>
            refine ⟨e, ?_, fun failure => absurd failure (by simp [success])⟩
            change (Client.valueUnder key r.content).map use = _
            rw [read]
            rfl
        | ok value =>
            obtain ⟨id, rfl, -⟩ := proper value read
            simp [Response.satisfies, success, Response.identifier?, read] at unmet

/-! ### The plan of an upload -/

/-- The exchanges of an upload, given the responses to them by their number. Only the first three
responses matter to it. -/
def plan (config : Config) (jobName : Text) (extractions : List Extraction)
    (answer : Nat → Response) : List Exchange :=
  let client := Client.ofConfig config
  let project := config.service.projectId.getD []
  let token := ((answer 0).identifier? "accessToken").getD []
  let jobUid := ((answer 1).identifier? "translationJobUid").getD []
  let batchUid := ((answer 2).identifier? "batchUid").getD []
  ⟨client.loginRequest (config.service.userId.getD []) (config.service.userSecret.getD []),
      some "accessToken"⟩ ::
    ⟨client.jobRequest project token jobName, some "translationJobUid"⟩ ::
    ⟨client.batchRequest project token jobUid (extractions.map fun e => e.path.toText),
      some "batchUid"⟩ ::
    extractions.flatMap fun e =>
      [⟨client.fileRequest project token batchUid e.path.toText (e.payload .spaced), none⟩,
        ⟨client.pageRequest project token jobUid e.path.toText e.page, none⟩]

theorem length_plan (config : Config) (jobName : Text) (extractions : List Extraction)
    (answer : Nat → Response) :
    (plan config jobName extractions answer).length = 3 + 2 * extractions.length := by
  simp only [plan, List.length_cons, List.length_flatMap, List.length_nil, List.map_const',
    List.sum_replicate_nat]
  omega

theorem sendAll_worksThrough {c : Client} {project token batchUid : Text}
    (ready : c.Ready project token) (plain : batchUid.IsPlain) (jobUid : Text)
    (extractions : List Extraction) (w : Workspace) :
    WorksThrough (sendAll c (.text batchUid) (.text jobUid) extractions) w
      (extractions.flatMap fun e =>
        [⟨c.fileRequest project token batchUid e.path.toText (e.payload .spaced), none⟩,
          ⟨c.pageRequest project token jobUid e.path.toText e.page, none⟩]) () := by
  induction extractions generalizing w with
  | nil =>
      exact worksThrough_pure ()
  | cons e rest hypothesis =>
      rw [List.flatMap_cons]
      refine (makes_of_asks (ready.uploadFile_asks _ _ plain)).bind fun _ _ _ _ => ?_
      exact (makes_of_asks (ready.uploadPage_asks _ _ jobUid)).bind fun w' _ _ _ => hypothesis w'

theorem WorksThrough.map {x : Run ServiceError α} {a : α} (worked : WorksThrough x w exchanges a)
    (f : α → β) : WorksThrough (x >>= fun a => pure (f a)) w exchanges (f a) := by
  obtain ⟨requests, finished, stopped⟩ := worked
  cases outcome : x w with
  | mk ended after =>
      rw [outcome] at requests finished stopped
      cases ended with
      | error e =>
          have failed := Run.bind_of_error (f := fun a => pure (f a)) outcome
          constructor <;> rw [failed]
          · exact requests
          · intro complete
            cases finished complete
          · intro r stop
            obtain ⟨fault, ⟨⟩, fails⟩ := stopped r stop
            exact ⟨e, rfl, fails⟩
      | ok value =>
          have continued := Run.bind_of_ok (f := fun a => pure (f a)) outcome
          constructor <;> rw [continued]
          · exact requests
          · intro complete
            cases finished complete
            rfl
          · intro r stop
            obtain ⟨fault, ⟨⟩, -⟩ := stopped r stop

/-- The first three responses hold identifiers of plain characters, if anything. -/
structure ProperAnswers (answer : Nat → Response) : Prop where
  token : (answer 0).Proper "accessToken"
  jobUid : (answer 1).Proper "translationJobUid"
  batchUid : (answer 2).Proper "batchUid"

theorem project_of_isComplete {settings : ServiceSettings} (complete : settings.isComplete = true) :
    settings.projectId = some (settings.projectId.getD []) ∧ settings.projectId.getD [] ≠ [] := by
  cases given : settings.projectId with
  | none =>
      simp [ServiceSettings.isComplete, ServiceSettings.isGiven, given] at complete
  | some project =>
      refine ⟨rfl, ?_⟩
      rintro rfl
      simp [ServiceSettings.isComplete, ServiceSettings.isGiven, given] at complete

theorem send_worksThrough {config : Config} (complete : config.service.isComplete = true)
    (plain : (config.service.projectId.getD []).IsPlain) (jobName : Text)
    (extractions : List Extraction) {answer : Nat → Response}
    (answers : ∀ i, answer i = w.respond (w.requests.length + i)) (proper : ProperAnswers answer) :
    WorksThrough (send config jobName extractions) w (plan config jobName extractions answer)
      (.text (((answer 1).identifier? "translationJobUid").getD [])) := by
  obtain ⟨given, named⟩ := project_of_isComplete complete
  have ready : Client.Ready
      { Client.ofConfig config with
        token := .text (((answer 0).identifier? "accessToken").getD []) } _ _ :=
    ⟨rfl, given, named, plain, by simp, rfl, proper.token.identifier⟩
  unfold send plan
  have asks := Client.authenticate_asks (c := Client.ofConfig config) rfl
    (config.service.userId.getD []) (config.service.userSecret.getD [])
  have login := makes_of_asks_identifier (w := w) asks (answers 0).symm proper.token
  refine login.bind fun w₁ respond₁ requests₁ _ => ?_
  have length₁ : w₁.requests.length = w.requests.length + 1 := by
    simp [requests₁]
  have job := makes_of_asks_identifier (w := w₁) (ready.createJob_asks jobName)
    (by rw [respond₁, length₁]; exact (answers 1).symm) proper.jobUid
  refine job.bind fun w₂ respond₂ requests₂ _ => ?_
  have length₂ : w₂.requests.length = w.requests.length + 2 := by
    simp [requests₂, length₁]
  have asks : Client.Asks _ _ (Client.judgeValue _ _ id) :=
    ready.createBatch_asks (extractions.map fun e => e.path.toText)
      (((answer 1).identifier? "translationJobUid").getD [])
  have batch := makes_of_asks_identifier (w := w₂) asks
    (by rw [respond₂, respond₁, length₂]; exact (answers 2).symm) proper.batchUid
  refine batch.bind fun w₃ respond₃ requests₃ _ => ?_
  exact (sendAll_worksThrough ready proper.batchUid.identifier _ extractions w₃).map _

/-! ### Extractions send nothing -/

theorem keeps_writeTree {σ : Type} {view : Workspace → σ}
    (blindToEvents : ∀ w events, view { w with events } = view w)
    (blindToFiles : ∀ w files, view { w with files } = view w) (root : Node)
    (document directory : Path) :
    Run.Keeps view (Extraction.writeTree root document directory) := by
  unfold Extraction.writeTree
  refine Run.Keeps.bind (fun w => blindToFiles w _) fun _ => ?_
  refine Run.Keeps.bind (fun w => ?_) fun _ => Run.keeps_log blindToEvents _
  rw [Run.writeFile_apply]
  split
  · exact blindToFiles w _
  · rfl

/-- An extraction changes nothing but the files and the events. -/
theorem keeps_ofFile {σ : Type} {view : Workspace → σ}
    (blindToEvents : ∀ w events, view { w with events } = view w)
    (blindToFiles : ∀ w files, view { w with files } = view w) (config : Config) (path : Path) :
    Run.Keeps view (Extraction.ofFile config path) := by
  unfold Extraction.ofFile
  refine (Run.keeps_log blindToEvents _).bind fun _ => ?_
  refine (Run.keeps_readText _ _).bind fun source => ?_
  refine (Run.keeps_ofTraced blindToEvents _).mapError.bind fun root => ?_
  cases config.debugDir
  case' some directory =>
    refine (keeps_writeTree blindToEvents blindToFiles root path directory).mapError.bind
      fun _ => ?_
  all_goals
    refine (Run.keeps_logAll blindToEvents _).bind fun _ => ?_
    refine (Run.keeps_ofExcept _).bind fun changes => ?_
    refine (Run.keeps_ofExcept _).bind fun _ => ?_
    refine (Run.keeps_ofExcept _).bind fun lang => ?_
    exact (Run.keeps_ofTraced blindToEvents _).mapError.bind fun page => Run.keeps_pure _

theorem path_of_ofFile {config : Config} {path : Path} {e : Extraction} {w w' : Workspace}
    (extracted : Extraction.ofFile config path w = (.ok e, w')) : e.path = path :=
  (Extraction.drawn_of_ofFile_ok extracted).1

theorem paths_of_mapM_ofFile {config : Config} {paths : List Path} {extractions : List Extraction}
    {w w' : Workspace}
    (extracted : paths.mapM (Extraction.ofFile config) w = (.ok extractions, w')) :
    extractions.map (·.path) = paths := by
  induction paths generalizing w extractions with
  | nil =>
      rw [List.mapM_nil] at extracted
      cases extracted
      rfl
  | cons path rest hypothesis =>
      rw [List.mapM_cons] at extracted
      obtain ⟨e, between, first, extracted⟩ := Run.of_bind_ok extracted
      obtain ⟨later, after, remaining, extracted⟩ := Run.of_bind_ok extracted
      cases extracted
      rw [List.map_cons, path_of_ofFile first, hypothesis remaining]

/-! ### How far an upload gets -/

theorem progress_of_all_satisfied {respond : Nat → Response} {n : Nat} {exchanges : List Exchange}
    (all : ∀ i (h : i < exchanges.length), (respond (n + i)).satisfies exchanges[i].key = true) :
    progress respond n exchanges = (exchanges.map (·.request), none) := by
  induction exchanges generalizing n with
  | nil =>
      rfl
  | cons exchange rest hypothesis =>
      have first : (respond n).satisfies exchange.key = true := all 0 (Nat.succ_pos _)
      have later : progress respond (n + 1) rest = (rest.map (·.request), none) := by
        refine hypothesis fun i within => ?_
        rw [Nat.add_right_comm, Nat.add_assoc]
        exact all (i + 1) (Nat.succ_lt_succ within)
      rw [progress, if_pos first, later]
      rfl

theorem progress_of_first_unsatisfied {respond : Nat → Response} {n i : Nat}
    {exchanges : List Exchange} (within : i < exchanges.length)
    (before : ∀ j (h : j < i), (respond (n + j)).satisfies exchanges[j].key = true)
    (unmet : (respond (n + i)).satisfies exchanges[i].key = false) :
    progress respond n exchanges =
      ((exchanges.take (i + 1)).map (·.request), some (respond (n + i))) := by
  induction exchanges generalizing n i with
  | nil =>
      cases within
  | cons exchange rest hypothesis =>
      cases i with
      | zero =>
          rw [progress, if_neg (by simpa using unmet)]
          rfl
      | succ i =>
          have first : (respond n).satisfies exchange.key = true := before 0 (Nat.succ_pos i)
          have shift : ∀ j, n + 1 + j = n + (j + 1) := by
            omega
          have later : progress respond (n + 1) rest =
              ((rest.take (i + 1)).map (·.request), some (respond (n + 1 + i))) := by
            refine hypothesis (Nat.lt_of_succ_lt_succ within) (fun j behind => ?_) ?_
            · rw [shift]
              exact before (j + 1) (Nat.succ_lt_succ behind)
            · rw [shift]
              exact unmet
          rw [progress, if_pos first, later, shift]
          rfl

/-! ### The whole upload -/

theorem run_of_extracted {config : Config} (complete : config.service.isComplete = true)
    (fallbackName : Text) {jobName : Text} (named : jobName ≠ []) {paths : List Path}
    {extractions : List Extraction} {w extracted : Workspace}
    (done : paths.mapM (Extraction.ofFile config) w = (.ok extractions, extracted)) :
    run config fallbackName paths jobName w =
      ((send config jobName extractions).mapError .service >>= fun jobUid => do
        Run.log ⟨.info, .pipeline, Text.ofString "全部文档已上传",
          [("count", .ofNat extractions.length), ("job_uid", jobUid)]⟩
        return extractions) extracted := by
  have filled : jobName.isEmpty = false := by
    simpa using named
  unfold run
  simp only [complete, filled]
  exact Run.bind_of_ok done

/-- What an upload does once all documents are extracted. -/
theorem run_progress {config : Config} (complete : config.service.isComplete = true)
    (plain : (config.service.projectId.getD []).IsPlain) (fallbackName : Text) {jobName : Text}
    (named : jobName ≠ []) {paths : List Path} {extractions : List Extraction}
    {w extracted : Workspace}
    (done : paths.mapM (Extraction.ofFile config) w = (.ok extractions, extracted))
    {answer : Nat → Response}
    (answers : ∀ i, answer i = extracted.respond (extracted.requests.length + i))
    (proper : ProperAnswers answer) :
    let ran := run config fallbackName paths jobName w
    let made := progress extracted.respond extracted.requests.length
      (plan config jobName extractions answer)
    ran.2.requests = extracted.requests ++ made.1 ∧
      (made.2 = none → ran.1 = .ok extractions) ∧
      ∀ r, made.2 = some r → ∃ e, ran.1 = .error (.service e) ∧ FailsAt r e := by
  intro ran made
  have same := run_of_extracted complete fallbackName named done
  obtain ⟨requests, finished, stopped⟩ :=
    send_worksThrough complete plain jobName extractions answers proper
  cases sent : send config jobName extractions extracted with
  | mk ended after =>
      rw [sent] at requests finished stopped
      cases ended with
      | error e =>
          have failed : ran = (.error (.service e), after) :=
            same.trans (Run.bind_of_error (Run.mapError_error sent))
          rw [failed]
          refine ⟨requests, fun whole => ?_, fun r stop => ?_⟩
          · cases finished whole
          · obtain ⟨fault, ⟨⟩, fails⟩ := stopped r stop
            exact ⟨e, rfl, fails⟩
      | ok jobUid =>
          have ended : ran = _ := same.trans (Run.bind_of_ok (Run.mapError_ok sent))
          rw [ended]
          refine ⟨requests, fun _ => rfl, fun r stop => ?_⟩
          obtain ⟨fault, ⟨⟩, -⟩ := stopped r stop

/-- An upload of which a document cannot be extracted sends nothing. Any other upload sends its plan
up to the first response that is no success or lacks its identifier, and then fails; if there is no
such response it sends the whole plan and gives the extractions in the order of the documents. -/
theorem run_protocol {config : Config} (complete : config.service.isComplete = true)
    (plain : (config.service.projectId.getD []).IsPlain) (fallbackName : Text) {jobName : Text}
    (named : jobName ≠ []) (paths : List Path) (w : Workspace) {answer : Nat → Response}
    (answers : ∀ i, answer i = w.respond (w.requests.length + i))
    (proper : ProperAnswers answer) :
    let ran := run config fallbackName paths jobName w
    match (paths.mapM (Extraction.ofFile config) w).1 with
    | .error failure => ran.1 = .error failure ∧ ran.2.requests = w.requests
    | .ok extractions =>
      let planned := plan config jobName extractions answer
      extractions.map (·.path) = paths ∧ planned.length = 3 + 2 * paths.length ∧
        ((∀ i (_ : i < planned.length), (answer i).satisfies planned[i].key = true) →
          ran.1 = .ok extractions ∧ ran.2.requests = w.requests ++ planned.map (·.request)) ∧
        ∀ i (_ : i < planned.length),
          (∀ j (_ : j < i), (answer j).satisfies planned[j].key = true) →
          (answer i).satisfies planned[i].key = false →
          (∃ e, ran.1 = .error (.service e) ∧ FailsAt (answer i) e) ∧
            ran.2.requests = w.requests ++ (planned.take (i + 1)).map (·.request) := by
  intro ran
  cases done : paths.mapM (Extraction.ofFile config) w with
  | mk ended extracted =>
      have sameRequests : extracted.requests = w.requests :=
        (Run.Keeps.mapM fun path _ =>
          keeps_ofFile (fun _ _ => rfl) (fun _ _ => rfl) config path).of_eq done
      have sameRespond : extracted.respond = w.respond :=
        (Run.Keeps.mapM fun path _ =>
          keeps_ofFile (fun _ _ => rfl) (fun _ _ => rfl) config path).of_eq done
      cases ended with
      | error failure =>
          have failed : ran = (.error failure, extracted) := by
            unfold ran run
            simp only [complete]
            exact Run.bind_of_error done
          rw [failed]
          exact ⟨rfl, sameRequests⟩
      | ok extractions =>
          have inOrder := paths_of_mapM_ofFile done
          have reported := run_progress complete plain fallbackName named done
            (by rw [sameRequests, sameRespond]; exact answers) proper
          rw [sameRequests, sameRespond] at reported
          obtain ⟨requests, finished, stopped⟩ := reported
          refine ⟨inOrder, ?_, fun all => ?_, fun i within before unmet => ?_⟩
          · rw [← inOrder, List.length_map]
            exact length_plan config jobName extractions answer
          · simp only [answers] at all
            have whole := progress_of_all_satisfied all
            rw [whole] at requests finished
            exact ⟨finished rfl, requests⟩
          · simp only [answers] at before unmet
            have part := progress_of_first_unsatisfied within before unmet
            rw [part] at requests stopped
            rw [answers i]
            exact ⟨stopped _ rfl, requests⟩

/-- A document whose page is refused, after its payload was taken. -/
theorem run_protocol_page_refused :
    let service : ServiceSettings :=
      { ServiceSettings.standard with
        projectId := some ['p'], userId := some ['u'], userSecret := some ['s'] }
    let config : Config := ⟨['e', 'n'], [], [], false, none, service, .standard⟩
    let document : Path := ⟨.relative, [['d']]⟩
    let holding (key : String) (id : Text) : Response :=
      ⟨200, Json.write .spaced (.record [("response",
        .record [("data", .record [(key, .text id)])])])⟩
    let answer (i : Nat) : Response :=
      [holding "accessToken" ['t'], holding "translationJobUid" ['j'], holding "batchUid" ['b'],
        ⟨202, []⟩].getD i ⟨500, []⟩
    let w : Workspace :=
      { files := { files := [([['d']], Utf8.encode (Text.ofString "---\ntitle: ab\n---\n"))] },
        respond := answer }
    let ran := run config [] [document] ['n'] w
    ran.2.requests.length = 5 ∧
      ∃ description message, ran.1 = .error (.service (.refused description message 500)) := by
  intro service config document holding answer w ran
  have complete : config.service.isComplete = true := by
    decide
  have plain : (config.service.projectId.getD []).IsPlain := by
    decide
  have answers : ∀ i, answer i = w.respond (w.requests.length + i) := by
    intro i
    change answer i = answer (0 + i)
    rw [Nat.zero_add]
  have proper : ProperAnswers answer := by
    constructor
    · exact Response.proper_of_identifier? (t := ['t']) (by decide +kernel) (by decide)
    · exact Response.proper_of_identifier? (t := ['j']) (by decide +kernel) (by decide)
    · exact Response.proper_of_identifier? (t := ['b']) (by decide +kernel) (by decide)
  have extracts : ([document].mapM (Extraction.ofFile config) w).1.toOption.isSome = true := by
    decide +kernel
  have login : (answer 0).satisfies (some "accessToken") = true := by
    decide +kernel
  have job : (answer 1).satisfies (some "translationJobUid") = true := by
    decide +kernel
  have batch : (answer 2).satisfies (some "batchUid") = true := by
    decide +kernel
  have payload : (answer 3).satisfies none = true := by
    decide
  have page : (answer 4).satisfies none = false := by
    decide
  have status : (answer 4).isSuccess = false ∧ (answer 4).status = 500 := by
    decide
  have noneBefore : w.requests = [] := rfl
  -- The run itself need not be looked into any more.
  clear_value w answer config
  have named : (['n'] : Text) ≠ [] := by
    decide
  have protocol := run_protocol complete plain [] named [document] w answers proper
  generalize ([document].mapM (Extraction.ofFile config) w).1 = extracted at protocol extracts
  cases extracted with
  | error failure =>
      cases extracts
  | ok extractions =>
      obtain ⟨inOrder, length, -, stopped⟩ := protocol
      obtain ⟨e, rfl, -⟩ := List.map_eq_singleton_iff.mp inOrder
      replace length : (plan config ['n'] [e] answer).length = 5 := length
      have before : ∀ j (_ : j < 4),
          (answer j).satisfies (plan config ['n'] [e] answer)[j].key = true := by
        intro j behind
        match j with
        | 0 => exact login
        | 1 => exact job
        | 2 => exact batch
        | 3 => exact payload
      obtain ⟨⟨error, failed, refused⟩, requests⟩ := stopped 4 (by omega) before page
      obtain ⟨description, message, rfl⟩ := refused status.1
      rw [status.2] at failed
      refine ⟨?_, description, message, failed⟩
      rw [requests, noneBefore]
      rfl

end Upload

end MdxLocalization
