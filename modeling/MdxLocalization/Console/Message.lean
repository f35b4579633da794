import MdxLocalization.Console.Markup
import MdxLocalization.Console.Wrap

/-!
# Messages

A message is markup, shown as its plain text with a line break after it.
-/

namespace MdxLocalization.Console

def message (markup : Text) : Except MarkupError Text := (plain markup).map shown

/-- What a console shows for a message whose lines are not wrapped. -/
def unwrappedMessage (markup : Text) : Except MarkupError Text :=
  (plain markup).map shownUnwrapped

end MdxLocalization.Console
