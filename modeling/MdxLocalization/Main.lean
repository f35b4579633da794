import MdxLocalization.Command.Program
import MdxLocalization.Log.Panel

/-!
# The executable

What the program needs from outside is read first: the variables and the environment file, what lies
at the paths that it is given, and the lines of input for the menu. Then the program runs, and what
it has printed, logged and written is carried out. There is no connection to the localization
service; every request is answered as if the service were down.
-/

open MdxLocalization

namespace MdxLocalization.Executable

/-- The environment variables that matter. -/
def variableNames : List String :=
  ["GITHUB_SHA", "GITHUB_REF"] ++ (Config.shapes.flatMap fun (name, shape) =>
    let start := "MDX_L10N_" ++ name.toUpper
    match shape with
    | .record fields => start :: fields.map fun field => start ++ "__" ++ field.toUpper
    | _ => [start])

/-- The environment variables that matter and are set. -/
def environment : IO (List (Text × Text)) := do
  let found ← variableNames.mapM fun name => do
    return (← IO.getEnv name).map fun value => (Text.ofString name, Text.ofString value)
  return found.filterMap id

/-- The path of a place, for the system. -/
def fileName (place : Place) : String := Text.toString place.toPath.toText

/-- Adds what lies at a place outside to a store. -/
def look (store : FileStore) (place : Place) : IO FileStore := do
  match ← (IO.FS.readBinFile (fileName place)).toBaseIO with
  | .ok bytes =>
    return { store with files := FileStore.put place (bytes.toList.map UInt8.toNat) store.files }
  | .error (.inappropriateType ..) =>
    return { store with directories := store.directories ++ [place] }
  | .error _ => return store

/-- The places on the way along a path, as it is written. -/
def placesOf (p : Path) : List Place :=
  let names := Place.start p ++ p.names
  (List.range names.length).map fun n => names.take (n + 1)

/-- The paths that words may stand for: the words themselves, and what follows an equals sign. -/
def pathsOf (ws : List Text) : List Path :=
  (ws.flatMap fun w => [w, (w.dropWhile (· != '=')).drop 1]).map Path.ofText

/-- What lies at some paths outside. -/
def snapshot (paths : List Path) : IO FileStore :=
  (paths.flatMap placesOf).eraseDups.foldlM look {}

def carryOut (before after : FileStore) : IO Unit := do
  for place in after.directories do
    if !before.directories.contains place then IO.FS.createDirAll (fileName place)
  for (place, bytes) in after.files do
    if before.fileAt? place != some bytes then
      IO.FS.writeBinFile (fileName place) ⟨(bytes.map UInt8.ofNat).toArray⟩

/-- The lines of input. -/
partial def inputLines (input : IO.FS.Stream) : IO (List Text) := do
  let line ← input.getLine
  if line.isEmpty then return []
  return Text.dropLineBreak (Text.ofString line) :: (← inputLines input)

/-- The answer that a line of input gives. -/
def answerOfLine (line : Text) : Answer :=
  match Text.toString line with
  | "y" | "yes" => .flag true
  | "n" | "no" => .flag false
  | _ => .text line

/-- The written form of an event for a threshold. -/
def eventText (threshold : LogThreshold) (e : LogEvent) : Text :=
  let written := e.toJsonWithSource
  match threshold.format, written with
  | .console, .object fields =>
    match ({} : LogPanel).render fields with
    | .ok t => t
    | .error e => e.message
  | _, written => written.write .spaced

def environmentFile : IO (Option Text) := do
  match ← (IO.FS.readFile ".env").toBaseIO with
  | .ok t => return some (Text.ofString t)
  | .error _ => return none

end MdxLocalization.Executable

open MdxLocalization.Executable

/-- Runs the program on the world outside. -/
def main (arguments : List String) : IO UInt32 := do
  let arguments := arguments.map Text.ofString
  let given ← environment
  let settings : Config.Sources := { environment := given, file := ← environmentFile }
  let isMenu := arguments.contains (Text.ofString "interactive")
  let lines ← if isMenu then inputLines (← IO.getStdin) else pure []
  let debugDir :=
    match Config.load settings with
    | .ok config => config.debugDir.toList
    | .error _ => []
  let files ← snapshot
    (debugDir ++ pathsOf (arguments ++ lines ++ lines.flatMap Text.words))
  let start : Start :=
    { arguments, settings, fallbackName := Upload.datedJobName given [] }
  let outcome := Program.run start
    { files, respond := fun _ => ⟨503, []⟩, answers := lines.map answerOfLine }
  let w := outcome.workspace
  carryOut files w.files
  IO.print (Text.toString w.printed)
  match outcome.threshold with
  | some threshold =>
    for e in threshold.shown w.events do
      IO.eprintln (Text.toString (eventText threshold e))
  | none => pure ()
  match outcome.ending with
  | .usage e => IO.eprintln (Text.toString e.message)
  | .crash (.failure f) => IO.eprintln (Text.toString (f.message?.getD []))
  | .crash (.markup e) => IO.eprintln (Text.toString e.message)
  | .exit _ => pure ()
  return UInt32.ofNat outcome.ending.exitCode
