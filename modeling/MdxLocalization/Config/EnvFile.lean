import MdxLocalization.Text.Blank

/-!
# Environment files

An environment file has one variable to a line: a name, an equals sign and a value, perhaps after
the word `export`. Values may be quoted, and a quoted value may run over several lines. What stands
after a number sign is a comment. A line that cannot be read is skipped.

A value may refer to variables by `$`, a name in braces and perhaps a default; variables of the file
itself come before those of the environment.
-/

namespace MdxLocalization.EnvFile

/-- White space within a line. -/
def isLineSpace (c : Char) : Bool := Text.isBlank c && c != '\r' && c != '\n'

def isLineEnd (c : Char) : Bool := c == '\r' || c == '\n'

def nextLine (t : Text) : Text :=
  match t.dropWhile fun c => !isLineEnd c with
  | '\r' :: '\n' :: rest => '\n' :: rest
  | _ :: rest => rest
  | [] => []

/-- The text after white space and a line end, or nothing when the line goes on. -/
def afterLineEnd? (t : Text) : Option Text :=
  match t.dropWhile isLineSpace with
  | [] => some []
  | '\r' :: '\n' :: rest => some rest
  | c :: rest => if isLineEnd c then some rest else none

/-- A value in quotes, with its escapes, and the text after the closing quote. An escaped quote is
part of the value, unless no other quote can close it. -/
def quoted? (quote : Char) (value : Text) : Text → Option (Text × Text)
  | [] => none
  | '\\' :: c :: rest =>
    if c = quote then
      match quoted? quote (quote :: '\\' :: value) rest with
      | some found => some found
      | none => some (('\\' :: value).reverse, rest)
    else quoted? quote ('\\' :: value) (c :: rest)
  | c :: rest => if c = quote then some (value.reverse, rest) else quoted? quote (c :: value) rest

/-- The character that an escape stands for. Between single quotes only quotes and backslashes are
escaped. -/
def escaped? (single : Bool) (c : Char) : Option Char :=
  if c = '\\' || c = '\'' then some c
  else if single then none
  else
    match c with
    | '"' => some '"'
    | 'a' => some '\x07'
    | 'b' => some '\x08'
    | 'f' => some '\x0c'
    | 'n' => some '\n'
    | 'r' => some '\r'
    | 't' => some '\t'
    | 'v' => some '\x0b'
    | _ => none

/-- Resolves the escapes of a quoted value. -/
def unescape (single : Bool) : Text → Text
  | [] => []
  | '\\' :: c :: rest =>
    match escaped? single c with
    | some d => d :: unescape single rest
    | none => '\\' :: unescape single (c :: rest)
  | c :: rest => c :: unescape single rest

/-- The part of a value before white space with a comment after it. -/
def beforeComment : Text → Text
  | [] => []
  | c :: rest =>
    if Text.isBlank c && (rest.dropWhile Text.isBlank).head? == some '#' then []
    else c :: beforeComment rest

/-- A value without quotes, less a comment and the white space at its end. -/
def withoutComment (t : Text) : Text := Text.trimEnd (beforeComment t)

/-- Reads a value and gives the text after it. -/
def value? (t : Text) : Option (Text × Text) :=
  match t with
  | '\'' :: rest => (quoted? '\'' [] rest).map fun (v, rest) => (unescape true v, rest)
  | '"' :: rest => (quoted? '"' [] rest).map fun (v, rest) => (unescape false v, rest)
  | _ =>
    let line := t.takeWhile fun c => !isLineEnd c
    some (withoutComment line, t.drop line.length)

/-- Reads a name and gives the text after it; a comment stands for no name. -/
def name? (t : Text) : Option (Option Text × Text) :=
  match t with
  | '#' :: _ => some (none, t)
  | '\'' :: rest =>
    let name := rest.takeWhile (· != '\'')
    match rest.drop name.length with
    | _ :: tail => if name.isEmpty then none else some (some name, tail)
    | [] => none
  | _ =>
    let name := t.takeWhile fun c => !(c == '=' || c == '#' || Text.isBlank c)
    if name.isEmpty then none else some (some name, t.drop name.length)

/-- The text after the word `export` and white space, if it starts with them. -/
def afterExport (t : Text) : Text :=
  let rest := t.drop 6
  let tail := rest.dropWhile isLineSpace
  if Text.startsWith t (Text.ofString "export") && tail.length < rest.length then tail else t

/-- The outcome of reading one variable: the variable, if there is one, and the text after it. -/
structure Binding where
  entry : Option (Text × Option Text)
  rest : Text

/-- Reads the variable at the start of a text without leading white space. -/
def binding (t : Text) : Binding :=
  let failed := fun (t : Text) => Binding.mk none (nextLine t)
  let start := afterExport t
  match name? start with
  | none => failed start
  | some (name, afterName) =>
    let close := fun (value : Option Text) (t : Text) =>
      let comment := t.dropWhile isLineSpace
      let t := if comment.head? = some '#' then comment.dropWhile (fun c => !isLineEnd c) else t
      match afterLineEnd? t with
      | some rest => Binding.mk (name.map fun n => (n, value)) rest
      | none => failed t
    match afterName.dropWhile isLineSpace with
    | '=' :: rest =>
      let start := rest.dropWhile isLineSpace
      match value? start with
      | some (value, rest) => close (some value) rest
      | none => failed start
    | rest => close none rest

/-- The variables of a file. A name without an equals sign has no value. The budget bounds their
number. -/
def bindings : Nat → Text → List (Text × Option Text)
  | 0, _ => []
  | budget + 1, t =>
    match Text.trimStart t with
    | [] => []
    | c :: rest =>
      let b := binding (c :: rest)
      b.entry.toList ++ bindings budget b.rest

/-- The value of a variable, the last one of its name. -/
def lookup (entries : List (Text × Option Text)) (name : Text) : Option (Option Text) :=
  (entries.reverse.find? (·.1 = name)).map (·.2)

/-- Resolves the references to variables in a value. The budget bounds the number of steps. -/
def expand (entries : List (Text × Option Text)) : Nat → Text → Text
  | 0, t => t
  | _ + 1, [] => []
  | budget + 1, c :: rest =>
    let reference : Option (Text × Option Text × Text) :=
      match c, rest with
      | '$', '\x7b' :: body =>
        let name := body.takeWhile fun c => c != '\x7d' && c != ':'
        match body.drop name.length with
        | '\x7d' :: tail => some (name, none, tail)
        | ':' :: '-' :: tail =>
          let fallback := tail.takeWhile (· != '\x7d')
          match tail.drop fallback.length with
          | _ :: tail => some (name, some fallback, tail)
          | [] => none
        | _ => none
      | _, _ => none
    match reference with
    | some (name, fallback, tail) =>
      let value :=
        match lookup entries name with
        | some value => value.getD []
        | none => fallback.getD []
      value ++ expand entries budget tail
    | none => c :: expand entries budget rest

/-- Reads a file: its variables with their references resolved. -/
def read (environment : List (Text × Text)) (t : Text) : List (Text × Option Text) :=
  let outer := environment.map fun (name, value) => (name, some value)
  let step := fun (done : List (Text × Option Text)) (entry : Text × Option Text) =>
    done ++ [(entry.1, entry.2.map fun v => expand (outer ++ done) (v.length + 1) v)]
  (bindings (t.length + 1) t).foldl step []

end MdxLocalization.EnvFile
