import MdxLocalization.Text.Basic

/-!
# Paths

A path is a root, which a relative path has none of, and the names on the way. Single points and
repeated slashes do not matter; two points are kept, since they may lead through a link. A path that
starts with exactly two slashes has a root of its own.
-/

namespace MdxLocalization

/-- Where a path starts. -/
inductive PathRoot where
  | relative
  | slash
  | slashes
  deriving DecidableEq, Repr

namespace PathRoot

/-- The text in front of the names. -/
def toText : PathRoot → Text
  | .relative => []
  | .slash => ['/']
  | .slashes => ['/', '/']

/-- Whether nothing stands in front of the names. -/
def isEmpty (root : PathRoot) : Bool := root.toText.isEmpty

end PathRoot

/-- A path to a file or directory. -/
structure Path where
  root : PathRoot
  names : List Text
  deriving DecidableEq, Repr

namespace Path

def ofText (t : Text) : Path :=
  let slashes := Text.countWhile (· == '/') t
  { root := if slashes = 0 then .relative else if slashes = 2 then .slashes else .slash
    names := (Text.splitOn '/' t).filter fun name => !name.isEmpty && name ≠ ['.'] }

/-- The text of a path; the path with no names is a point. -/
def toText (p : Path) : Text :=
  if p.root.isEmpty && p.names.isEmpty then ['.']
  else p.root.toText ++ Text.join ['/'] p.names

def name (p : Path) : Text := p.names.getLast?.getD []

/-- The last name without its suffix, which starts with the last point and is not the whole name. -/
def stem (p : Path) : Text :=
  let suffix := (p.name.reverse.takeWhile (· != '.')).length
  let length := p.name.length - suffix - 1
  if suffix = 0 || p.name.length ≤ suffix + 1 then p.name else p.name.take length

/-- The path of the directory that holds a path. -/
def parent (p : Path) : Path := { p with names := p.names.dropLast }

/-- A path that starts from another one, unless it has a root of its own. -/
def join (p q : Path) : Path :=
  if q.root.isEmpty then { p with names := p.names ++ q.names } else q

/-- The path of something in a directory. -/
def child (p : Path) (name : Text) : Path := p.join (ofText name)

end Path

end MdxLocalization
