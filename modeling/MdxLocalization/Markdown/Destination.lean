import MdxLocalization.Markdown.Entity

/-!
# Destinations and titles of links

The recognisers look at the start of a text and give the value, with escapes and references
resolved, and the text after it. A title that has not ended at the end of the text may be continued
with more text; this is how a link reference definition takes in further lines.
-/

namespace MdxLocalization.Markdown.Destination

/-- The length of a destination in angle brackets up to its closing bracket. -/
def angleLength? : Text → Option Nat
  | [] => none
  | '\\' :: _ :: tail => (angleLength? tail).map (· + 2)
  | c :: rest =>
    if c = '\n' || c = '<' then none
    else if c = '>' then some 0
    else (angleLength? rest).map (· + 1)

/-- The length of a destination without angle brackets; `depth` counts its open brackets, which have
to be balanced and at most 32 deep. -/
def bareLength? (depth : Nat) : Text → Option Nat
  | [] => if depth = 0 then some 0 else none
  | '\\' :: d :: tail =>
    if d = ' ' then (if depth = 0 then some 0 else none)
    else (bareLength? depth tail).map (· + 2)
  | c :: rest =>
    if c.toNat ≤ 0x20 || c.toNat = 0x7F then (if depth = 0 then some 0 else none)
    else if c = '(' then
      if 32 < depth + 1 then none else (bareLength? (depth + 1) rest).map (· + 1)
    else if c = ')' then
      if depth = 0 then some 0 else (bareLength? (depth - 1) rest).map (· + 1)
    else (bareLength? depth rest).map (· + 1)

/-- Reads a destination: its text and its length. -/
def read? (t : Text) : Option (Text × Nat) :=
  match t with
  | '<' :: rest =>
    (angleLength? rest).map fun n => (Entity.unescape (rest.take n), n + 2)
  | _ =>
    match bareLength? 0 t with
    | none | some 0 => none
    | some n => some (Entity.unescape (t.take n), n)

/-- The outcome of reading a title. -/
inductive Title where
  /-- The title and the length up to behind its closing mark. -/
  | complete (title : Text) (length : Nat)
  /-- The text ended within a title that `closing` ends; `title` is what it holds so far. -/
  | unfinished (title : Text) (closing : Char)
  | absent
  deriving Repr

/-- How the inside of a title goes on. -/
inductive Inside where
  | closed (length : Nat)
  | unclosed
  | refused

/-- Looks for the closing mark of a title. An opening bracket must not stand bare in a title in
brackets. -/
def inside (closing : Char) (length : Nat) : Text → Inside
  | [] => .unclosed
  | '\\' :: _ :: tail => inside closing (length + 2) tail
  | c :: rest =>
    if c = closing then .closed length
    else if c = '(' && closing == ')' then .refused
    else inside closing (length + 1) rest

def continueTitle (title : Text) (closing : Char) (t : Text) : Title :=
  match inside closing 0 t with
  | .closed n => .complete (title ++ Entity.unescape (t.take n)) (n + 1)
  | .unclosed => .unfinished (title ++ Entity.unescape t) closing
  | .refused => .absent

/-- Reads a title. -/
def readTitle (t : Text) : Title :=
  match t with
  | [] => .absent
  | c :: rest =>
    if c = '"' || c = '\'' || c = '(' then
      match continueTitle [] (if c = '(' then ')' else c) rest with
      | .complete title n => .complete title (n + 1)
      | other => other
    else .absent

end MdxLocalization.Markdown.Destination
