import MdxLocalization.Config.EnvFile
import MdxLocalization.Json.Reader

/-!
# Layers of settings

Settings come in layers: values given directly, then the variables of the environment, then those of
an environment file. An earlier layer wins, and records are merged field by field.

A variable is named by a common beginning and the name of the setting, case ignored. A list or a
record is given as JSON; the fields of a record may also be given by variables of their own, whose
names go on after two underscores.
-/

namespace MdxLocalization.Config

/-- The fields of a record of settings. -/
abbrev Fields := List (Text × Json)

/-- How variables give a setting. -/
inductive Shape where
  | plain
  | list
  | record (names : List String)

/-- The settings in order. -/
def shapes : List (String × Shape) :=
  [("default_locale", .plain), ("target_locales", .list), ("placeholder_name", .plain),
    ("emphasize", .plain), ("debug_dir", .plain),
    ("smartling", .record
      ["base_url", "project_id", "user_id", "user_secret", "timeout", "max_job_name_length"]),
    ("logging", .record ["level", "format"])]

/-- What the names of all variables start with. -/
def variablePrefix : Text := Text.ofString "mdx_l10n_"

mutual

/-- A value with another one over it: records are merged, anything else is replaced. -/
def overlay (below above : Json) : Json :=
  match below, above with
  | .object fields, .object more => .object (overlayFields fields more)
  | _, above => above
  termination_by sizeOf above
  decreasing_by all_goals simp_wf

/-- Fields with others over them. -/
def overlayFields (fields : Fields) (more : Fields) : Fields :=
  match more with
  | [] => fields
  | (name, value) :: rest =>
    let merged :=
      match fields.lookup name with
      | some old => overlay old value
      | none => value
    overlayFields (Json.setField name merged fields) rest
  termination_by sizeOf more
  decreasing_by all_goals simp_wf <;> omega

end

/-- Sets the value at a path of names; a value that is no record on the way stops it. -/
def setPath (value : Json) : List Text → Json → Json
  | [], _ => value
  | name :: rest, .object fields =>
    let old := (fields.lookup name).getD (.object [])
    .object (Json.setField name (setPath value rest old) fields)
  | _ :: _, other => other

/-- The pieces of a text between pairs of underscores. The budget bounds their number. -/
def splitNames : Nat → Text → List Text
  | 0, t => [t]
  | budget + 1, t =>
    match Text.find? ['_', '_'] t with
    | some n => t.take n :: splitNames budget (t.drop (n + 2))
    | none => [t]

/-- The record that the variables of its fields give. -/
def recordOfVariables (name : Text) (entries : List (Text × Option Text)) : Fields :=
  let start := variablePrefix ++ name ++ ['_', '_']
  let step := fun (record : Json) (entry : Text × Option Text) =>
    if Text.startsWith entry.1 start then
      let path := splitNames entry.1.length (entry.1.drop start.length)
      setPath (Json.ofOption .text entry.2) path record
    else record
  match entries.foldl step (.object []) with
  | .object fields => fields
  | _ => []

/-- A record from JSON whose field names ignore case. -/
def withKnownNames (names : List String) (fields : Fields) : Fields :=
  fields.foldl (fun done (name, value) =>
    let lower := name.map Char.toLower
    let known := names.any fun n => Text.ofString n = lower
    Json.setField (if known then lower else name) value done) []

/-- Variables whose names are in lower case; of two with the same name the later one counts. -/
def lowerNames (entries : List (Text × Option Text)) : List (Text × Option Text) :=
  entries.foldl (fun done (name, value) =>
    let name := name.map Char.toLower
    if done.any (·.1 = name) then done.map fun v => if v.1 = name then (name, value) else v
    else done ++ [(name, value)]) []

/-- The setting that variables give, if they do; the failure is that of a text that is no JSON. -/
def settingOfVariables (entries : List (Text × Option Text)) (name : Text) (shape : Shape) :
    Except JsonError (Option Json) :=
  let own := (entries.lookup (variablePrefix ++ name)).join
  match shape with
  | .plain => .ok (own.map .text)
  | .list =>
    match own with
    | none => .ok none
    | some t => (Json.read t).map fun
      | .null => none
      | value => some value
  | .record names => do
    let nested := recordOfVariables name entries
    let finish := fun fields => Json.object (withKnownNames names fields)
    match own with
    | none => return if nested.isEmpty then none else some (finish nested)
    | some t =>
      match ← Json.read t with
      | .null => return none
      | .object fields => return some (finish (overlayFields fields nested))
      | value => return some value

/-- The settings that variables give; the failure is the name of a setting that is no JSON. -/
def layerOfVariables (entries : List (Text × Option Text)) : Except String Fields :=
  let entries := lowerNames entries
  shapes.foldlM (fun fields (name, shape) =>
    match settingOfVariables entries (Text.ofString name) shape with
    | .error _ => .error name
    | .ok none => .ok fields
    | .ok (some value) => .ok (fields ++ [(Text.ofString name, value)])) []

end MdxLocalization.Config
