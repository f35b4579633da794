import MdxLocalization.Config.Layer
import MdxLocalization.Files.Path
import MdxLocalization.Locale.Url
import MdxLocalization.Number.DecimalText

/-!
# Settings

The settings of the library, and how they are read from the layers that give them. Values are taken
leniently: a number or a truth value may be given as a text. All faults are reported together, in
the order of the settings; what is not known is ignored.
-/

namespace MdxLocalization

/-- Where the localization service is, and as whom to use it. -/
structure ServiceSettings where
  baseUrl : Text
  projectId : Option Text
  userId : Option Text
  userSecret : Option Text
  /-- How many seconds to wait for an answer. -/
  timeout : Binary64
  maxJobNameLength : Int
  deriving Repr

/-- How log events are written. -/
inductive LogFormat where
  | json
  | console
  deriving DecidableEq, Repr

def LogFormat.name : LogFormat → String
  | .json => "json"
  | .console => "console"

/-- Which log events are written, and how. -/
structure LogSettings where
  level : Text
  format : LogFormat
  deriving Repr

/-- The settings when nothing is given. -/
def LogSettings.standard : LogSettings := ⟨Text.ofString "INFO", .console⟩

/-- The settings. -/
structure Config where
  defaultLocale : Text
  targetLocales : List Text
  placeholderName : Text
  /-- Whether translated texts are made to stand out when they are put in. -/
  emphasize : Bool
  /-- Where trees are written for inspection, if anywhere. -/
  debugDir : Option Path
  service : ServiceSettings
  logging : LogSettings
  deriving Repr

/-- A step from a setting to a part of it. -/
inductive PathStep where
  | field (name : String)
  | index (i : Nat)
  deriving DecidableEq, Repr

/-- What is wrong with a value. -/
inductive IssueKind where
  | notText
  /-- The value has the right form, but a rule refuses it. -/
  | refused
  | unreadableBool
  | notBool
  | notList
  | notPath
  | unknownChoice
  | notRecord
  | notPositive
  | unreadableReal
  | notReal
  | unreadableInteger
  | fractionalInteger
  | infiniteInteger
  | notInteger
  deriving DecidableEq, Repr

/-- A fault of a value. -/
structure Issue where
  path : List PathStep
  kind : IssueKind
  deriving DecidableEq, Repr

/-- The layers that are given by variables. -/
inductive VariableLayer where
  | environment
  | file
  deriving DecidableEq, Repr

/-- Why settings cannot be read. -/
inductive ConfigError where
  /-- A variable should hold JSON and does not. -/
  | unreadable (setting : String) (layer : VariableLayer)
  | invalid (issues : List Issue)
  deriving DecidableEq, Repr

/-- The message of an error about a variable. -/
def ConfigError.message : ConfigError → Text
  | .unreadable setting layer =>
    Text.ofString "error parsing value for field \"" ++ Text.ofString setting ++
      Text.ofString "\" from source \"" ++
      Text.ofString (match layer with
        | .environment => "EnvSettingsSource"
        | .file => "DotEnvSettingsSource") ++ ['"']
  | .invalid _ => []

namespace ServiceSettings

/-- The settings when nothing is given. -/
def standard : ServiceSettings :=
  { baseUrl := Text.ofString "https://api.smartling.com", projectId := none, userId := none,
    userSecret := none, timeout := Binary64.ofInt 30, maxJobNameLength := 170 }

def isGiven (t : Option Text) : Bool := t.any fun t => !t.isEmpty

def isComplete (s : ServiceSettings) : Bool :=
  isGiven s.projectId && isGiven s.userId && isGiven s.userSecret

end ServiceSettings

namespace Config

/-- The outcome of checking a value. -/
abbrev Checked := Except (List Issue)

/-- A fault of a whole value. -/
def issue {α : Type} (kind : IssueKind) : Checked α := .error [⟨[], kind⟩]

/-- The faults found by a check. -/
def issuesOf {α : Type} : Checked α → List Issue
  | .ok _ => []
  | .error issues => issues

/-- A check of a part of a value. -/
def within {α : Type} (step : PathStep) (c : Checked α) : Checked α :=
  c.mapError fun issues => issues.map fun i => { i with path := step :: i.path }

def field {α : Type} (fields : Fields) (name : String) (fallback : α) (check : Json → Checked α) :
    Checked α :=
  match Json.fieldOf? fields name with
  | none => .ok fallback
  | some value => within (.field name) (check value)

def checkText : Json → Checked Text
  | .text t => .ok t
  | _ => issue .notText

def checkOptional {α : Type} (check : Json → Checked α) : Json → Checked (Option α)
  | .null => .ok none
  | value => (check value).map some

/-- The truth value that a word stands for. -/
def boolOfWord? (t : Text) : Option Bool :=
  let word := Text.toString (t.map Char.toLower)
  if ["0", "off", "f", "false", "n", "no"].contains word then some false
  else if ["1", "on", "t", "true", "y", "yes"].contains word then some true
  else none

/-- The truth value that a number stands for. -/
def checkBit (n : Int) : Checked Bool :=
  if n = 0 then .ok false else if n = 1 then .ok true else issue .unreadableBool

/-- Checks a truth value. -/
def checkBool : Json → Checked Bool
  | .bool b => .ok b
  | .text t =>
    match boolOfWord? t with
    | some b => .ok b
    | none => issue .unreadableBool
  | .integer n => checkBit n
  | .real x =>
    match x.isIntegral, x.truncate? with
    | true, some n => checkBit n
    | _, _ => issue .notBool
  | _ => issue .notBool

/-- Checks a real number above zero. -/
def checkPositiveReal (value : Json) : Checked Binary64 := do
  let x ←
    match value with
    | .real x => .ok x
    | .integer n => .ok (Binary64.ofInt n)
    | .bool b => .ok (Binary64.ofInt (if b then 1 else 0))
    | .text t =>
      match DecimalText.readReal? t with
      | some x => .ok x
      | none => issue .unreadableReal
    | _ => issue .notReal
  if x.isPositive then return x else issue .notPositive

/-- Checks a whole number above zero. -/
def checkPositiveInteger (value : Json) : Checked Int := do
  let n ←
    match value with
    | .integer n => .ok n
    | .bool b => .ok (if b then 1 else 0)
    | .real x =>
      match x.truncate? with
      | none => issue .infiniteInteger
      | some n => if x.isIntegral then .ok n else issue .fractionalInteger
    | .text t =>
      match DecimalText.readInteger? t with
      | some n => .ok n
      | none => issue .unreadableInteger
    | _ => issue .notInteger
  if 0 < n then return n else issue .notPositive

/-- Checks the members of a list from a position on. -/
def checkTexts (i : Nat) : List Json → Checked (List Text)
  | [] => .ok []
  | value :: rest =>
    match within (.index i) (checkText value), checkTexts (i + 1) rest with
    | .ok t, .ok ts => .ok (t :: ts)
    | first, others => .error (issuesOf first ++ issuesOf others)

def checkCodes {α : Type} (codes : List Text) (value : α) : Checked α :=
  match LanguageTag.checkCodes codes with
  | .ok () => .ok value
  | .error _ => issue .refused

def checkLocale (value : Json) : Checked Text := do
  let t ← checkText value
  checkCodes [t] t

/-- Checks the locales to translate into, of which there has to be one. -/
def checkLocales : Json → Checked (List Text)
  | .array values => do
    let codes ← checkTexts 0 values
    if codes.isEmpty then issue .refused else checkCodes codes codes
  | _ => issue .notList

def checkPath : Json → Checked Path
  | .text t => .ok (Path.ofText t)
  | _ => issue .notPath

def checkFormat : Json → Checked LogFormat
  | .text t =>
    match [LogFormat.json, .console].find? fun f => Text.ofString f.name = t with
    | some f => .ok f
    | none => issue .unknownChoice
  | _ => issue .unknownChoice

/-- Checks the settings of the service. -/
def checkService : Json → Checked ServiceSettings
  | .object fields =>
    let standard := ServiceSettings.standard
    let baseUrl := field fields "base_url" standard.baseUrl checkText
    let projectId := field fields "project_id" standard.projectId (checkOptional checkText)
    let userId := field fields "user_id" standard.userId (checkOptional checkText)
    let userSecret := field fields "user_secret" standard.userSecret (checkOptional checkText)
    let timeout := field fields "timeout" standard.timeout checkPositiveReal
    let length := field fields "max_job_name_length" standard.maxJobNameLength checkPositiveInteger
    match baseUrl, projectId, userId, userSecret, timeout, length with
    | .ok baseUrl, .ok projectId, .ok userId, .ok userSecret, .ok timeout, .ok maxJobNameLength =>
      .ok { baseUrl, projectId, userId, userSecret, timeout, maxJobNameLength }
    | _, _, _, _, _, _ =>
      .error (issuesOf baseUrl ++ issuesOf projectId ++ issuesOf userId ++ issuesOf userSecret ++
        issuesOf timeout ++ issuesOf length)
  | _ => issue .notRecord

/-- Checks the settings of the log. -/
def checkLogging : Json → Checked LogSettings
  | .object fields =>
    let level := field fields "level" LogSettings.standard.level checkText
    let format := field fields "format" LogSettings.standard.format checkFormat
    match level, format with
    | .ok level, .ok format => .ok ⟨level, format⟩
    | _, _ => .error (issuesOf level ++ issuesOf format)
  | _ => issue .notRecord

/-- Checks all settings. -/
def check (fields : Fields) : Checked Config :=
  let locale := field fields "default_locale" (Text.ofString "en-US") checkLocale
  let targets :=
    field fields "target_locales" [Text.ofString "zh-CN", Text.ofString "ja-JP"] checkLocales
  let placeholder := field fields "placeholder_name" Url.defaultPlaceholder checkText
  let emphasize := field fields "emphasize" false checkBool
  let debugDir := field fields "debug_dir" none (checkOptional checkPath)
  let service := field fields "smartling" ServiceSettings.standard checkService
  let logging := field fields "logging" LogSettings.standard checkLogging
  match locale, targets, placeholder, emphasize, debugDir, service, logging with
  | .ok defaultLocale, .ok targetLocales, .ok placeholderName, .ok emphasize, .ok debugDir,
      .ok service, .ok logging =>
    .ok { defaultLocale, targetLocales, placeholderName, emphasize, debugDir, service, logging }
  | _, _, _, _, _, _, _ =>
    .error (issuesOf locale ++ issuesOf targets ++ issuesOf placeholder ++ issuesOf emphasize ++
      issuesOf debugDir ++ issuesOf service ++ issuesOf logging)

/-- What settings are read from: values given directly, variables of the environment, and the text
of an environment file. -/
structure Sources where
  given : Fields := []
  environment : List (Text × Text) := []
  file : Option Text := none

def load (s : Sources) : Except ConfigError Config := do
  let environment := s.environment.map fun (name, value) => (name, some value)
  let outer ← (layerOfVariables environment).mapError (.unreadable · .environment)
  let file := (s.file.map (EnvFile.read s.environment)).getD []
  let inner ← (layerOfVariables file).mapError (.unreadable · .file)
  (check (overlayFields (overlayFields inner outer) s.given)).mapError .invalid

/-- The short form of the default locale. -/
def languageCode (c : Config) : Except TagError Text := LanguageTag.languageCode c.defaultLocale

end Config

end MdxLocalization
