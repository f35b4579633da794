import MdxLocalization.Span
import MdxLocalization.Text.Blank
import MdxLocalization.Text.Word

/-!
# Import and export statements

A paragraph that starts with the word `import` or `export` is a block of module statements. Such a
statement names its module by a literal in quotes, either directly after `import` or after bindings
and the word `from`.
-/

namespace MdxLocalization.Esm

/-- Whether a text is empty or does not continue a word. -/
def atWordEnd : Text → Bool
  | [] => true
  | c :: _ => !Text.isWord c

/-- Whether a text starts with the word `import` or `export`. -/
def isModuleBlock (t : Text) : Bool :=
  ["import", "export"].any fun word =>
    Text.startsWith t (Text.ofString word) && atWordEnd (t.drop word.length)

/-- A quote that may enclose a module literal. -/
def isQuote (c : Char) : Bool := c == '"' || c == '\''

/-- What stands between `import` and the literal: white space alone, or white space, bindings and
the word `from` at the end, white space after it aside. -/
def isImportClause (t : Text) : Bool :=
  match t with
  | [] => false
  | c :: _ =>
    let core := Text.trimEnd t
    Text.isBlank c &&
      (core.isEmpty ||
        (Text.endsWith core (Text.ofString "from") &&
          atWordEnd (core.take (core.length - 4)).reverse))

/-- An import statement at the start of a text: the position of its literal, the literal with its
quotes, and the length of the statement. -/
def importStatement? (t : Text) : Option (Nat × Text × Nat) :=
  if Text.startsWith t (Text.ofString "import") then
    let body := t.drop 6
    let clause := body.takeWhile fun c => !isQuote c && c != ';'
    match body.drop clause.length with
    | [] => none
    | quote :: rest =>
      if isQuote quote && isImportClause clause then
        let name := rest.takeWhile fun c => !isQuote c && c != '\r' && c != '\n'
        match rest.drop name.length with
        | [] => none
        | closing :: _ =>
          if closing = quote then
            let start := 6 + clause.length
            some (start, quote :: name ++ [quote], start + name.length + 2)
          else none
      else none
  else none

/-- The literals of the import statements in a text that stands at `offset`, with their spans.
`inWord` tells whether a word character stands directly before the text, and a positive `skip` is
the number of characters that still belong to the statement found last. -/
def importsFrom (offset skip : Nat) (inWord : Bool) : Text → List (Text × Span)
  | [] => []
  | c :: rest =>
    if 0 < skip then importsFrom (offset + 1) (skip - 1) false rest
    else
      match (if inWord then none else importStatement? (c :: rest)) with
      | some (start, literal, length) =>
        (literal, Span.ofNats (offset + start) (offset + start + literal.length)) ::
          importsFrom (offset + 1) (length - 1) false rest
      | none => importsFrom (offset + 1) 0 (Text.isWord c) rest

/-- The literals of the import statements in the region `start ≤ i < stop` of a source. -/
def imports (source : Text) (start stop : Nat) : List (Text × Span) :=
  importsFrom start 0 false (Text.slice source start stop)

end MdxLocalization.Esm
