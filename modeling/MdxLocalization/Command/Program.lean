import MdxLocalization.Command.Invocation
import MdxLocalization.Command.Menu
import MdxLocalization.Log.Threshold

/-!
# The program

The program reads how it is invoked, then its settings, then the words of the command, and runs the
command. It ends with an exit code, or by an error that nobody expects.
-/

namespace MdxLocalization

/-- How the program ends. -/
inductive Ending where
  | exit (code : Nat)
  | usage (error : Command.UsageError)
  | crash (error : ActionError)
  deriving Repr

def Ending.exitCode : Ending → Nat
  | .exit code => code
  | .usage _ => 2
  | .crash _ => 1

/-- What the program is started with. -/
structure Start where
  arguments : List Text
  settings : Config.Sources
  /-- The name of a job that is given none. -/
  fallbackName : Text

/-- What is left when the program has ended. -/
structure Outcome where
  ending : Ending
  /-- How events were to be shown, if the program came so far. -/
  threshold : Option LogThreshold
  workspace : Workspace

namespace Program

def versionMessage : Text := Text.ofString "mdx-l10n [bold cyan]v0.1.0[/bold cyan]"

/-- The line that says how to invoke the program. -/
def usageMessage : Text := Text.ofString "Usage: mdx-l10n \\[OPTIONS] COMMAND \\[ARGS]..."

/-- Ends an action: an error that users are told about is reported. -/
def finish (action : Run ActionError Unit) : Run ActionError Nat :=
  tryCatch (do action; return 0) fun e =>
    match e with
    | .failure f => if f.isExpected then (do Action.report f; return 1) else throw e
    | .markup _ => throw e

/-- Does what a command is to do and gives the exit code. -/
def runTask (config : Config) (fallbackName : Text) : Command.Task → Run ActionError Nat
  | .help => do
    Action.say usageMessage
    return 0
  | .extract documents directory =>
    finish (do let _ ← Action.extract config documents directory)
  | .upload documents jobName => finish (Action.upload config fallbackName documents jobName)
  | .update source translated output emphasize =>
    finish (do let _ ← Action.update config ⟨source, translated, output, emphasize⟩)
  | .interactive => do
    Menu.run config fallbackName
    return 0

/-- Says that the program cannot start, and why. -/
def refuse (reason : Text) : Run ActionError Nat := do
  Action.say (Text.ofString "[bold red]❌ 启动失败：无法加载配置或初始化日志。[/bold red]")
  Action.say (Text.ofString "[dim]" ++ reason ++ Text.ofString "[/dim]")
  return 1

/-- Reads the settings and the threshold of the log, or says why they cannot be read. -/
def prepare (settings : Config.Sources) (logLevel : Option Text) :
    Except Text (Config × Text × LogThreshold) := do
  let config ← (Config.load settings).mapError ConfigError.message
  let given := logLevel.getD []
  let level := if given.isEmpty then config.logging.level else given
  let threshold ←
    (LogThreshold.ofLevel config.logging.format level).mapError LogThreshold.unknownLevel
  return (config, level, threshold)

def conclude (threshold : Option LogThreshold) (w : Workspace) (action : Run ActionError Nat) :
    Outcome :=
  match action.run w with
  | (.ok code, w) => ⟨.exit code, threshold, w⟩
  | (.error e, w) => ⟨.crash e, threshold, w⟩

/-- Runs the program. -/
def run (start : Start) (w : Workspace) : Outcome :=
  match Command.Invocation.read start.arguments with
  | .error e => ⟨.usage e, none, w⟩
  | .ok .version => conclude none w (do Action.say versionMessage; return 0)
  | .ok .help => conclude none w (do Action.say usageMessage; return 0)
  | .ok (.command logLevel name words) =>
    match prepare start.settings logLevel with
    | .error reason => conclude none w (refuse reason)
    | .ok (config, level, threshold) =>
      let ready := LogThreshold.readyEvent threshold.format level
      let w := { w with events := w.events ++ [ready] }
      match Command.Task.read w.files name words with
      | .error e => ⟨.usage e, some threshold, w⟩
      | .ok task => conclude (some threshold) w (runTask config start.fallbackName task)

end Program

end MdxLocalization
