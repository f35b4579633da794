import MdxLocalization.Locale.Url
import MdxLocalization.Tree.Node

/-!
# Errors of extraction

Extraction fails when a node with content has no position, or when an address cannot be localised.
-/

namespace MdxLocalization

/-- Why changes cannot be extracted from a tree. -/
inductive ExtractError where
  | missingPosition (error : MissingPosition)
  | url (error : UrlError)
  deriving DecidableEq, Repr

def ExtractError.message : ExtractError → Text
  | .missingPosition error => error.message
  | .url error => error.message

end MdxLocalization
