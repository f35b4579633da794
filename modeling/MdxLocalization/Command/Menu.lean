import MdxLocalization.Command.Action

/-!
# The menu

The menu asks for an action and what it needs, runs it, and asks again until the user leaves or
declines. An error that users are told about does not end it.
-/

namespace MdxLocalization.Menu

def extractEntry : String := "📄 提取 (Extract)"

def uploadEntry : String := "☁️ 上传 (Upload)"

/-- The entry for putting translated texts in. -/
def updateEntry : String := "📝 回填 (Update)"

/-- The entry for leaving. -/
def exitEntry : String := "🚪 退出 (Exit)"

/-- The entries in order. -/
def entries : List String := [extractEntry, uploadEntry, updateEntry, exitEntry]

/-- The text of an answer, unless it is empty. -/
def givenText? : Answer → Option Text
  | .text t => if t.isEmpty then none else some t
  | _ => none

/-- Asks for documents, separated by white space. They all have to be there. -/
def askDocuments (message : String) : Run ActionError (List Path) := do
  let answer ← Run.ask (.text message)
  let paths := (Text.words ((givenText? answer).getD [])).map Path.ofText
  let files := (← get).files
  let missing := paths.filter fun p => !files.isFile p
  if missing.isEmpty then return paths
  else
    Action.say (Text.ofString "[yellow]文件不存在: " ++
      Text.join [',', ' '] (missing.map Path.toText) ++ Text.ofString "[/yellow]")
    return []

/-- Asks for a path. -/
def askForPath (message : String) : Run ActionError (Option Path) := do
  return (givenText? (← Run.ask (.path message []))).map Path.ofText

/-- Asks for documents and extracts them. -/
def extract (config : Config) : Run ActionError Unit := do
  let documents ← askDocuments "请输入要提取的文档路径 (空格分隔):"
  if !documents.isEmpty then
    let directory ← askForPath "输出目录 (留空则打印):"
    let _ ← Action.extract config documents directory

def agrees : Answer → Bool
  | .flag b => b
  | .text t => !t.isEmpty
  | .declined => false

/-- Asks for documents and uploads them if the user agrees. -/
def upload (config : Config) (fallbackName : Text) : Run ActionError Unit := do
  let documents ← askDocuments "请输入要上传的文档路径 (空格分隔):"
  if !documents.isEmpty then
    let question := Text.ofString "确定要上传 " ++ Text.ofNat documents.length ++
      Text.ofString " 个文档到 Smartling 吗?"
    if agrees (← Run.ask (.confirm question false)) then
      let jobName := givenText? (← Run.ask (.text "任务名称 (留空使用默认值):"))
      Action.upload config fallbackName documents (jobName.getD [])

/-- Asks for a document and its translated file and puts them together. -/
def update (config : Config) : Run ActionError Unit := do
  let source ← askForPath "源文档路径:"
  let translated ← askForPath "译文 JSON 路径:"
  match source, translated with
  | some source, some translated =>
    let output ← askForPath "输出路径 (留空则覆盖源文档):"
    let answer ← Run.ask (.confirm (Text.ofString "是否强调显示译文?") config.emphasize)
    let emphasize :=
      match answer with
      | .declined => none
      | answer => some (agrees answer)
    let _ ← Action.update config ⟨source, translated, output, emphasize⟩
  | _, _ => return

/-- Runs an action; an error that users are told about is reported and forgotten. -/
def attempt (action : Run ActionError Unit) : Run ActionError Unit :=
  tryCatch action fun e =>
    match e with
    | .failure f => if f.isExpected then Action.report f else throw e
    | .markup _ => throw e

/-- Asks for an entry of the menu; nothing stands for leaving. -/
def askEntry : Run ActionError (Option Text) := do
  match ← Run.ask (.select "请选择一个操作:" entries) with
  | .text t => return if t = Text.ofString exitEntry then none else some t
  | _ => return none

/-- Runs the menu for at most so many rounds. -/
def rounds (config : Config) (fallbackName : Text) : Nat → Run ActionError Unit
  | 0 => return
  | budget + 1 => do
    match ← askEntry with
    | none => return
    | some entry =>
      attempt (
        if entry = Text.ofString extractEntry then extract config
        else if entry = Text.ofString uploadEntry then upload config fallbackName
        else if entry = Text.ofString updateEntry then update config
        else return)
      Action.say ['\n']
      rounds config fallbackName budget

/-- Runs the menu. Each round takes an answer, and without answers the user declines. -/
def run (config : Config) (fallbackName : Text) : Run ActionError Unit := do
  rounds config fallbackName ((← get).answers.length + 1)

end MdxLocalization.Menu
