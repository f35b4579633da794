import MdxLocalization.Command.Option
import MdxLocalization.Files.Store

/-!
# Invocations

The program is invoked with its own options, the name of a command, and the words of the command.
Documents have to exist when a command is read; a directory for output must not be a file.
-/

namespace MdxLocalization.Command

/-- The options of the program. -/
inductive ProgramOption where
  | version
  | help
  | logLevel
  deriving DecidableEq, Repr

/-- The names of the commands. -/
inductive CommandName where
  | extract
  | upload
  | update
  | interactive
  deriving DecidableEq, Repr

/-- How the program is invoked. -/
inductive Invocation where
  | version
  | help
  | command (logLevel : Option Text) (name : CommandName) (words : List Text)
  deriving DecidableEq, Repr

/-- What a command is to do, with what it works on. -/
inductive Task where
  | help
  | extract (documents : List Path) (directory : Option Path)
  | upload (documents : List Path) (jobName : Text)
  | update (source translated : Path) (output : Option Path) (emphasize : Option Bool)
  | interactive
  deriving DecidableEq, Repr

/-- The options of the commands. -/
inductive CommandOption where
  | help
  | out
  | jobName
  | output
  | emphasize
  deriving DecidableEq, Repr

/-- The options of the program and how they are written. -/
def programOptions : List (OptionSpec ProgramOption) :=
  [{ option := .version, long := some "version", letter := some 'v' },
    { option := .help, long := some "help" },
    { option := .logLevel, long := some "log-level", takesValue := true }]

/-- The name of a command and how it is written. -/
def commandNames : List (String × CommandName) :=
  [("extract", .extract), ("upload", .upload), ("update", .update), ("interactive", .interactive)]

/-- Reads the words of an invocation up to the command. -/
def Invocation.read (arguments : List Text) : Except UsageError Invocation := do
  let words ← Words.read programOptions true none arguments
  match words.options.find? fun o => o.1 = .version || o.1 = .help with
  | some (.version, _) => return .version
  | some _ => return .help
  | none =>
    match words.operands with
    | [] => .error .missingCommand
    | name :: rest =>
      match commandNames.find? fun entry => Text.ofString entry.1 = name with
      | some entry => return .command (words.valueOf? .logLevel) entry.2 rest
      | none => .error (.unknownCommand name)

/-- The option for help, which every command has. -/
def helpOption : OptionSpec (CommandOption × Bool) :=
  { option := (.help, true), long := some "help" }

/-- The options of a command; each comes with the truth value that it sets. -/
def commandOptions : CommandName → List (OptionSpec (CommandOption × Bool))
  | .extract => [helpOption,
    { option := (.out, true), long := some "out", letter := some 'o', takesValue := true }]
  | .upload => [helpOption,
    { option := (.jobName, true), long := some "job-name", letter := some 'j', takesValue := true }]
  | .update => [helpOption,
    { option := (.output, true), long := some "output", letter := some 'o', takesValue := true },
    { option := (.emphasize, true), long := some "emphasize" },
    { option := (.emphasize, false), long := some "no-emphasize" }]
  | .interactive => [helpOption]

/-- Whether a path is written like that of a directory. -/
def isWrittenAsDirectory (t : Text) : Bool :=
  Text.endsWith t ['/'] || Text.endsWith t ['/', '.']

def leadsToFile (files : FileStore) (t : Text) : Bool :=
  !t.isEmpty && !isWrittenAsDirectory t && files.isFile (Path.ofText t)

/-- The path of a document, which has to be a file. -/
def documentPath (files : FileStore) (t : Text) : Except UsageError Path :=
  if leadsToFile files t then .ok (Path.ofText t) else .error (.badPath t)

/-- The path of a directory for output, which must not be a file. -/
def directoryPath (files : FileStore) (t : Text) : Except UsageError Path :=
  if leadsToFile files t then .error (.badPath t) else .ok (Path.ofText t)

/-- The paths of documents, of which there has to be one. -/
def documentPaths (files : FileStore) (operands : List Text) : Except UsageError (List Path) :=
  if operands.isEmpty then .error .missingOperand else operands.mapM (documentPath files)

/-- Reads the words of a command. -/
def Task.read (files : FileStore) (name : CommandName) (arguments : List Text) :
    Except UsageError Task := do
  let words ← Words.read (commandOptions name) false none arguments
  let value := fun option => words.valueOf? (option, true)
  if words.options.any fun o => o.1.1 = .help then return .help
  match name with
  | .extract =>
    let documents ← documentPaths files words.operands
    return .extract documents (← (value .out).mapM (directoryPath files))
  | .upload => return .upload (← documentPaths files words.operands) ((value .jobName).getD [])
  | .update =>
    match words.operands with
    | [source, translated] =>
      let emphasize := (words.options.reverse.find? fun o => o.1.1 = .emphasize).map (·.1.2)
      return .update (← documentPath files source) (← documentPath files translated)
        ((value .output).map Path.ofText) emphasize
    | _ :: _ :: _ => .error .surplusOperand
    | _ => .error .missingOperand
  | .interactive => if words.operands.isEmpty then return .interactive else .error .surplusOperand

end MdxLocalization.Command
