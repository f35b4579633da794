import MdxLocalization.Files.Path
import MdxLocalization.Text.Utf8

/-!
# Files

A file store is the part of a file system that a run can see. A place in it is the list of names
that lead there from the directory in which the run stands, or from a root, which then is the first
name. Every file has its bytes; a directory exists when it was made or when something lies in it,
and the directory of the run, those above it, and the roots are always there. None of these is ever
a file.

Paths are looked up name by name, and each name but the last has to lead to a directory. Two points
lead to the directory above. The errors are the ones that such a look-up can meet; each names the
path as it was given.
-/

namespace MdxLocalization

/-- The names that lead to a place in a store. -/
abbrev Place := List Text

/-- The name of the directory above. -/
def parentName : Text := ['.', '.']

namespace Place

def isRoot (place : Place) : Bool :=
  match place with
  | [name] => name.head? == some '/'
  | _ => false

/-- Whether a place is a directory whatever a store holds. -/
def isOutermost (place : Place) : Bool := place.all (· == parentName) || isRoot place

def above (place : Place) : Place :=
  if isRoot place then place
  else if isOutermost place then place ++ [parentName]
  else place.dropLast

/-- Whether a place is strictly above another. -/
def isAbove (upper place : Place) : Bool := upper.isPrefixOf place && upper != place

/-- The path that leads to a place. -/
def toPath (place : Place) : Path :=
  match place with
  | name :: rest =>
    if name = PathRoot.slashes.toText then ⟨.slashes, rest⟩
    else if name.head? == some '/' then ⟨.slash, rest⟩
    else ⟨.relative, place⟩
  | [] => ⟨.relative, []⟩

def start (p : Path) : Place := if p.root.isEmpty then [] else [p.root.toText]

end Place

/-- The contents of a file. -/
abbrev Bytes := List Nat

/-- Why a file or directory cannot be used. -/
inductive FileFault where
  | missing
  | exists
  | notDirectory
  | isDirectory
  deriving DecidableEq, Repr

/-- A fault, and the path that has it. -/
structure FileError where
  fault : FileFault
  path : Path
  deriving DecidableEq, Repr

/-- The number and the words of a fault. -/
def FileFault.message : FileFault → String
  | .missing => "[Errno 2] No such file or directory"
  | .exists => "[Errno 17] File exists"
  | .notDirectory => "[Errno 20] Not a directory"
  | .isDirectory => "[Errno 21] Is a directory"

def FileError.message (e : FileError) : Text :=
  Text.ofString e.fault.message ++ ':' :: ' ' :: Text.quoted e.path.toText

/-- The files and directories that a run can see. -/
structure FileStore where
  files : List (Place × Bytes) := []
  directories : List Place := []
  deriving Repr

namespace FileStore

def fileAt? (s : FileStore) (place : Place) : Option Bytes :=
  if place.isOutermost then none else s.files.lookup place

def isDirectory (s : FileStore) (place : Place) : Bool :=
  (s.fileAt? place).isNone &&
    (place.isOutermost || s.directories.any (place.isPrefixOf ·) ||
      s.files.any fun file => place.isAbove file.1)

/-- Goes from a place along some names. -/
def walk (s : FileStore) (place : Place) : List Text → Except FileFault Place
  | [] => .ok place
  | name :: rest =>
    if s.isDirectory place then
      walk s (if name = parentName then place.above else place ++ [name]) rest
    else if (s.fileAt? place).isSome then .error .notDirectory
    else .error .missing

/-- The place that a path leads to. Nothing has to be there yet. -/
def locate (s : FileStore) (p : Path) : Except FileError Place :=
  (s.walk (Place.start p) p.names).mapError (⟨·, p⟩)

def isFile (s : FileStore) (p : Path) : Bool :=
  match s.locate p with
  | .ok place => (s.fileAt? place).isSome
  | .error _ => false

def leadsToDirectory (s : FileStore) (p : Path) : Bool :=
  match s.locate p with
  | .ok place => s.isDirectory place
  | .error _ => false

/-- The contents of the file that a path leads to. -/
def read (s : FileStore) (p : Path) : Except FileError Bytes := do
  let place ← s.locate p
  match s.fileAt? place with
  | some bytes => .ok bytes
  | none => .error ⟨if s.isDirectory place then .isDirectory else .missing, p⟩

def put (place : Place) (bytes : Bytes) : List (Place × Bytes) → List (Place × Bytes)
  | [] => [(place, bytes)]
  | file :: rest =>
    if file.1 = place then (place, bytes) :: rest else file :: put place bytes rest

/-- Writes a file, whether or not there was one before. -/
def write (s : FileStore) (p : Path) (bytes : Bytes) : Except FileError FileStore := do
  let place ← s.locate p
  if s.isDirectory place then .error ⟨.isDirectory, p⟩
  else .ok { s with files := put place bytes s.files }

/-- Makes one directory, unless it is there already. The directory above has to be there. -/
def makeDirectory (s : FileStore) (p : Path) : Except FileError FileStore := do
  let place ← s.locate p
  if s.isDirectory place then .ok s
  else if (s.fileAt? place).isSome then .error ⟨.exists, p⟩
  else .ok { s with directories := s.directories ++ [place] }

/-- Makes a directory and, where they are missing, the ones above it. A directory that was made
stays when the next one cannot be made. The budget bounds the number of names. -/
def makeDirectoriesWithin : Nat → FileStore → Path → FileStore × Except FileError Unit
  | 0, s, p =>
    match s.makeDirectory p with
    | .ok s => (s, .ok ())
    | .error e => (s, .error e)
  | budget + 1, s, p =>
    match s.makeDirectory p with
    | .ok s => (s, .ok ())
    | .error e =>
      if e.fault = .missing then
        match makeDirectoriesWithin budget s p.parent with
        | (s, .error e) => (s, .error e)
        | (s, .ok ()) =>
          match s.makeDirectory p with
          | .ok s => (s, .ok ())
          | .error e => (s, .error e)
      else (s, .error e)

/-- Makes a directory and, where they are missing, the ones above it. -/
def makeDirectories (s : FileStore) (p : Path) : FileStore × Except FileError Unit :=
  makeDirectoriesWithin p.names.length s p

/-- The store with some files, given by their places. -/
def ofFiles (files : List (Place × Bytes)) : FileStore :=
  { files := files.foldl (fun files (place, bytes) => put place bytes files) [] }

end FileStore

end MdxLocalization
