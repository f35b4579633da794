import MdxLocalization.Locale.Tag
import MdxLocalization.Locale.Template

/-!
# Localising addresses

In an address the first path segment that is the short form of the default locale is replaced by a
placeholder, which a later tool fills in. A segment follows a slash and ends at a slash, a quote, a
number sign, a question mark or the end; a line feed at the very end is not part of it.
-/

namespace MdxLocalization

/-- Why an address cannot be localised. -/
inductive UrlError where
  | tag (error : TagError)
  | template (error : TemplateError)
  deriving DecidableEq, Repr

def UrlError.message : UrlError → Text
  | .tag error => error.message
  | .template error => error.message

namespace Url

/-- The name of the placeholder when none is configured. -/
def defaultPlaceholder : Text := Text.ofString "locale"

def placeholder (name : Text) : Text := '%' :: '%' :: name ++ ['%', '%']

/-- Whether a path segment may end before a text. -/
def endsSegment : Text → Bool
  | [] => true
  | ['\n'] => true
  | c :: _ => c == '/' || c == '"' || c == '\'' || c == '#' || c == '?'

def splitAtSegment? (segment : Text) : Text → Option (Text × Text)
  | [] => none
  | c :: rest =>
    if c = '/' && Text.startsWith rest segment && endsSegment (rest.drop segment.length) then
      some ([], rest.drop segment.length)
    else (splitAtSegment? segment rest).map fun (before, after) => (c :: before, after)

/-- Replaces the first occurrence of a segment by what a template stands for. -/
def replaceSegment (segment : Text) (pieces : List Template.Piece) (url : Text) : Text :=
  match splitAtSegment? segment url with
  | some (before, after) => before ++ Template.expand pieces ('/' :: segment) ++ after
  | none => url

/-- Replaces the first segment of a locale by the placeholder with the given name. The name is read
as part of a template. -/
def localize (locale name url : Text) : Except UrlError Text := do
  let segment ← (LanguageTag.languageCode locale).mapError .tag
  let pieces ← (Template.read ('/' :: placeholder name)).mapError .template
  return replaceSegment segment pieces url

end Url

end MdxLocalization
