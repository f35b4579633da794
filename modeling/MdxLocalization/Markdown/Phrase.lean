import MdxLocalization.Text.Basic

/-!
# Phrases

The content of a paragraph, heading or cell is a sequence of phrases. The ends of emphasis are
phrases of their own; they are balanced. Links and images hold phrases.
-/

namespace MdxLocalization.Markdown

/-- A piece of running text. -/
inductive Phrase where
  | text (t : Text)
  /-- A character that was written as an escape or reference. -/
  | escaped (t : Text)
  | softBreak
  | hardBreak
  | code (t : Text)
  | html (t : Text)
  | emphasisStart (strong : Bool)
  | emphasisEnd (strong : Bool)
  | link (url title : Text) (children : List Phrase)
  | image (url title : Text) (children : List Phrase)
  deriving Inhabited

end MdxLocalization.Markdown
