import MdxLocalization.Console.Message
import MdxLocalization.Workflow.Update
import MdxLocalization.Workflow.Upload

/-!
# Actions

What the commands and the menu do: extract documents, upload them, put translated texts in. Each
says what it has done.
-/

namespace MdxLocalization

/-- Why an action breaks off. -/
inductive ActionError where
  | failure (failure : Failure)
  /-- A message holds tags that do not match. -/
  | markup (error : Console.MarkupError)
  deriving Repr

/-- Whether users are told about an error; all others stop the program. -/
def ActionError.isExpected : ActionError → Bool
  | .failure f => f.isExpected
  | .markup _ => false

namespace Action

/-- Shows a message. -/
def say (markup : Text) : Run ActionError Unit := do
  Run.print (← Run.ofExcept ((Console.message markup).mapError .markup))

/-- Tells the user about an error. -/
def report (f : Failure) : Run ActionError Unit := do
  let markup := Text.ofString "[bold red]❌ " ++ Console.escape (f.message?.getD []) ++
    Text.ofString "[/bold red]"
  Run.print (← Run.ofExcept ((Console.unwrappedMessage markup).mapError .markup))

def payloadFile (directory document : Path) : Path :=
  directory.child (document.name ++ Text.ofString ".json")

def pageFile (directory document : Path) : Path :=
  directory.child (document.name ++ Text.ofString ".html")

/-- Writes an extraction into a directory and gives the two files written. -/
def writeExtraction (directory : Path) (e : Extraction) : Run FileError (List Path) := do
  Run.makeDirectories directory
  let payload := payloadFile directory e.path
  let page := pageFile directory e.path
  Run.writeFile payload (e.payload (.indented 2))
  Run.writeFile page e.page
  return [payload, page]

/-- Extracts a document; without a directory the payload is printed. -/
def extractOne (config : Config) (directory : Option Path) (document : Path) :
    Run ActionError (List Path) := do
  let e ← (Extraction.ofFile config document).mapError .failure
  match directory with
  | none =>
    Run.print (e.payload (.indented 2) ++ ['\n'])
    return []
  | some directory =>
    let written ← (writeExtraction directory e).mapError fun e => .failure (.file e)
    say (Text.ofString "[green]✅ " ++ document.toText ++ Text.ofString "[/green]: " ++
      Text.ofNat e.changes.length ++ Text.ofString " 条变更 -> [cyan]" ++
      (payloadFile directory document).toText ++ Text.ofString "[/cyan]")
    return written

/-- Extracts documents one after the other and gives the files written. -/
def extract (config : Config) (documents : List Path) (directory : Option Path) :
    Run ActionError (List Path) :=
  match documents with
  | [] => return []
  | document :: rest => do
    let written ← extractOne config directory document
    return written ++ (← extract config rest directory)

def upload (config : Config) (fallbackName : Text) (documents : List Path) (jobName : Text) :
    Run ActionError Unit := do
  let extractions ← (Upload.run config fallbackName documents jobName).mapError .failure
  say (Text.ofString "[bold green]✅ 已上传 " ++ Text.ofNat extractions.length ++
    Text.ofString " 个文档到 Smartling。[/bold green]")

/-- Puts translated texts into a document and gives the file written. -/
def update (config : Config) (r : Update.Request) : Run ActionError Path := do
  let target ← (Update.run config r).mapError .failure
  say (Text.ofString "[bold green]✅ 译文已写入 " ++ target.toText ++
    Text.ofString "[/bold green]")
  return target

end Action

end MdxLocalization
