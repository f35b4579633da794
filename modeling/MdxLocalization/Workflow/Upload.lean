import MdxLocalization.Workflow.Extraction

/-!
# Uploading documents

All documents are extracted before anything is sent. Then come the login, a job, a batch that names
every document, and for each document its payload and its context page.
-/

namespace MdxLocalization.Upload

/-- The name of a job that is given none: the commit and the branch that are being built, or the
program and the time. -/
def datedJobName (environment : List (Text × Text)) (time : Text) : Text :=
  let variableOf := fun name => ((environment.lookup (Text.ofString name)).getD [] : Text)
  let commit := variableOf "GITHUB_SHA"
  let branch := variableOf "GITHUB_REF"
  if commit.isEmpty || branch.isEmpty then Text.ofString "mdx-l10n " ++ time
  else commit ++ Text.ofString " - " ++ branch

/-- Uploads the payload and the page of each document. -/
def sendAll (client : Client) (batchUid jobUid : Json) :
    List Extraction → Run ServiceError Unit
  | [] => pure ()
  | e :: rest => do
    client.uploadFile (e.payload .spaced) e.path.toText batchUid
    client.uploadPage e.path.toText e.page jobUid
    sendAll client batchUid jobUid rest

/-- Sends extractions to the service and gives the identifier of their job. -/
def send (config : Config) (jobName : Text) (extractions : List Extraction) :
    Run ServiceError Json := do
  let client := Client.ofConfig config
  let client ← client.authenticate (config.service.userId.getD [])
    (config.service.userSecret.getD [])
  let jobUid ← client.createJob jobName
  let batchUid ← client.createBatch (extractions.map fun e => e.path.toText) jobUid
  sendAll client batchUid jobUid extractions
  return jobUid

/-- Uploads documents; an empty name of the job counts as none. -/
def run (config : Config) (fallbackName : Text) (paths : List Path) (jobName : Text) :
    Run Failure (List Extraction) := do
  if !config.service.isComplete then throw .incompleteService
  let extractions ← paths.mapM (Extraction.ofFile config)
  let jobUid ←
    (send config (if jobName.isEmpty then fallbackName else jobName) extractions).mapError .service
  Run.log ⟨.info, .pipeline, Text.ofString "全部文档已上传",
    [("count", .ofNat extractions.length), ("job_uid", jobUid)]⟩
  return extractions

end MdxLocalization.Upload
