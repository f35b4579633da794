import MdxLocalization.Extract.Error
import MdxLocalization.ParseError
import MdxLocalization.Patch
import MdxLocalization.Payload
import MdxLocalization.Service.Client

/-!
# Failures

Most of what goes wrong with a document is reported as a failure of that document, with the fault as
its cause. Failures that nobody expects, and those of the service, are passed on as they are.
-/

namespace MdxLocalization

/-- A fault that is reported together with the document it concerns. -/
inductive DocumentFault where
  | file (error : FileError)
  | undecodable (error : Utf8Error)
  | missingPosition (error : MissingPosition)
  | patch (error : PatchError)
  /-- A translated file that cannot be read. -/
  | malformed (error : PayloadError)
  deriving Repr

namespace DocumentFault

/-- The message of a malformed translated file, where its cause has one. -/
def malformedMessage? (e : PayloadError) : Option Text :=
  e.message?.map (Text.ofString "无法解析译文文件: " ++ ·)

/-- The message of a fault, where there is one. -/
def message? : DocumentFault → Option Text
  | .file error => some error.message
  | .undecodable error => some error.message
  | .missingPosition error => some error.message
  | .patch error => some error.message
  | .malformed error => malformedMessage? error

end DocumentFault

/-- Why a run fails. -/
inductive Failure where
  | document (path : Path) (fault : DocumentFault)
  | parse (error : ParseError)
  | url (error : UrlError)
  | payload (error : PayloadError)
  | file (error : FileError)
  /-- The settings of the service are not complete. -/
  | incompleteService
  | service (error : ServiceError)
  deriving Repr

namespace Failure

/-- The message of a failure, where there is one. -/
def message? : Failure → Option Text
  | .document path fault =>
    fault.message?.map fun m =>
      Text.ofString "处理文档 '" ++ path.toText ++ Text.ofString "' 失败: " ++ m
  | .parse error => some error.message
  | .url error => some error.message
  | .payload error => error.message?
  | .file error => some error.message
  | .incompleteService =>
    some (Text.ofString "Smartling 配置不完整，请设置 project_id、user_id 与 user_secret。")
  | .service error => error.message?

/-- Whether a failure is one that users are told about; all others stop the program. -/
def isExpected : Failure → Bool
  | .document .. => true
  | .incompleteService => true
  | .service .noProject => true
  | .service .noToken => true
  | .service (.refused ..) => true
  | _ => false

/-- What a failure to collect the changes of a document means for a run. -/
def ofExtractError (path : Path) : ExtractError → Failure
  | .missingPosition error => .document path (.missingPosition error)
  | .url error => .url error

/-- What a failure to read a translated file means for a run. -/
def ofPayloadError (path : Path) (error : PayloadError) : Failure :=
  if error.isMalformedFile then .document path (.malformed error) else .payload error

end Failure

def Run.readText (document file : Path) : Run Failure Text := do
  let bytes ← (Run.readFile file).mapError fun e => .document document (.file e)
  Run.ofExcept ((Utf8.decode bytes).mapError fun e => .document document (.undecodable e))

end MdxLocalization
