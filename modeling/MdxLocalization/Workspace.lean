import MdxLocalization.Files.Store
import MdxLocalization.Log.Traced
import MdxLocalization.Service.Exchange

/-!
# The workspace of a run

A run works on files, logs events, sends requests to the localization service, asks questions and
prints. All of this is state of the workspace: the service is a function that answers the n-th
request, the answers to questions are a list that is used up from the front, and what was asked,
sent, logged and printed is kept in order. A run may fail; what it did before stays done.
-/

namespace MdxLocalization

/-- A question to the user. -/
inductive Question where
  | select (message : String) (choices : List String)
  | text (message : String)
  | path (message : String) (preset : Text)
  | confirm (message : Text) (preset : Bool)
  deriving DecidableEq, Repr

/-- What the user answers. -/
inductive Answer where
  | declined
  | text (t : Text)
  | flag (b : Bool)
  deriving DecidableEq, Repr

/-- Everything that a run reads and changes. -/
structure Workspace where
  files : FileStore := {}
  events : List LogEvent := []
  /-- The response to each request, by the number of requests before it. -/
  respond : Nat → Response
  requests : List Request := []
  answers : List Answer := []
  questions : List Question := []
  printed : Text := []

/-- A computation on the workspace that may fail. -/
abbrev Run (ε : Type) := ExceptT ε (StateM Workspace)

namespace Run

/-- A run with another kind of error. -/
def mapError {ε δ α : Type} (f : ε → δ) (x : Run ε α) : Run δ α := fun w =>
  match x w with
  | (.ok a, w) => (.ok a, w)
  | (.error e, w) => (.error (f e), w)

/-- A run that changes nothing. -/
def ofExcept {ε α : Type} : Except ε α → Run ε α
  | .ok a => pure a
  | .error e => throw e

/-- A run that only logs. -/
def ofTraced {ε α : Type} (x : Traced ε α) : Run ε α := fun w =>
  let (result, events) := x w.events
  (result, { w with events := events })

/-- Logs an event. -/
def log {ε : Type} (e : LogEvent) : Run ε Unit :=
  modify fun w => { w with events := w.events ++ [e] }

/-- Logs several events. -/
def logAll {ε : Type} (es : List LogEvent) : Run ε Unit :=
  modify fun w => { w with events := w.events ++ es }

/-- The contents of a file. -/
def readFile (p : Path) : Run FileError Bytes := do ofExcept ((← get).files.read p)

def writeFile (p : Path) (t : Text) : Run FileError Unit := do
  let files ← ofExcept ((← get).files.write p (Utf8.encode t))
  modify fun w => { w with files := files }

/-- Makes a directory and those above it. -/
def makeDirectories (p : Path) : Run FileError Unit := fun w =>
  let (files, result) := w.files.makeDirectories p
  (result, { w with files := files })

def send {ε : Type} (r : Request) : Run ε Response := do
  let w ← get
  set { w with requests := w.requests ++ [r] }
  return w.respond w.requests.length

def print {ε : Type} (t : Text) : Run ε Unit :=
  modify fun w => { w with printed := w.printed ++ t }

/-- Asks a question. When the answers are used up, the user declines. -/
def ask {ε : Type} (q : Question) : Run ε Answer := do
  let w ← get
  set { w with questions := w.questions ++ [q], answers := w.answers.drop 1 }
  return w.answers.head?.getD .declined

end Run

end MdxLocalization
