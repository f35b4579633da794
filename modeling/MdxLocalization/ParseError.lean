import MdxLocalization.Markdown.Line

/-!
# Parse errors

Parsing accepts every text but for one fault: some rules look at the character at a position
without first asking whether the text reaches that far. Rules for blocks do so in their lines, and
scanners do so in a region of the source that they are given.
-/

namespace MdxLocalization

/-- Why a text cannot be parsed. -/
inductive ParseError where
  /-- A rule for blocks asked for a character past the end of the text. -/
  | pastEnd
  /-- A region to be scanned reaches past the end of the text. -/
  | regionPastEnd
  deriving DecidableEq, Repr

/-- What the failure of a rule for blocks means for parsing. -/
def ParseError.ofBlocks (_ : Markdown.PastEnd) : ParseError := .pastEnd

def ParseError.message : ParseError → Text
  | .pastEnd | .regionPastEnd => Text.ofString "string index out of range"

end MdxLocalization
