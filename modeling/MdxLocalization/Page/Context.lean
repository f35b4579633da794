import MdxLocalization.Esm
import MdxLocalization.Jsx.Tag
import MdxLocalization.Log.Traced
import MdxLocalization.Markdown.Reading
import MdxLocalization.Page.Markup

/-!
# Context pages

A context page shows translators how a document looks. JSX tags have no counterpart in HTML and
become spans; module statements at top level are left out.
-/

namespace MdxLocalization.Page

/-- The span that a JSX tag at the start of a text becomes, and the text after the tag. A tag must
not contain angle brackets. -/
def jsxSpan? (t : Text) : Option (String × Text) :=
  match t with
  | '<' :: rest =>
    let (closing, rest) :=
      match rest with
      | '/' :: rest => (true, rest)
      | _ => (false, rest)
    match rest with
    | [] => none
    | c :: rest =>
      if !c.isUpper then none
      else
        let body := rest.dropWhile Jsx.isNameRest
        let inside := body.takeWhile fun c => c != '<' && c != '>'
        match body.drop inside.length with
        | '>' :: tail =>
          let selfClosing := inside.getLast? == some '/'
          let fits := inside.isEmpty || inside == ['/'] || (inside.head?.any Text.isBlank)
          if !fits then none
          else
            some (if closing then "</span>" else if selfClosing then "<span></span>" else "<span>",
              tail)
        | _ => none
  | _ => none

/-- Turns the JSX tags of a text into spans. A positive `skip` is the number of characters that
still belong to the tag found last. -/
def spansForTags (skip : Nat) : Text → Text
  | [] => []
  | c :: rest =>
    match skip with
    | skip + 1 => spansForTags skip rest
    | 0 =>
      match jsxSpan? (c :: rest) with
      | some (span, tail) => Text.ofString span ++ spansForTags (rest.length - tail.length) rest
      | none => c :: spansForTags 0 rest

/-- A page around a written body. -/
def template (lang title body : Text) : Text :=
  Text.ofString "<!doctype html>\n<html lang=\"" ++ escape lang ++
    Text.ofString "\">\n  <head>\n    <meta charset=\"utf-8\">\n    <title>" ++ escape title ++
    Text.ofString ("</title>\n    <meta name=\"viewport\" " ++
      "content=\"width=device-width, initial-scale=1\">\n  </head>\n  <body>\n") ++
    body ++ Text.ofString "  </body>\n</html>\n"

/-- The context page of a document. -/
def context (source title lang : Text) : Traced ParseError Text := do
  let blocks ← Traced.ofExcept ((Markdown.blocks source).mapError .ofBlocks)
  let style : Style :=
    { references := references blocks, adapt := spansForTags 0, omits := Esm.isModuleBlock }
  let body := Markup.writeAll none (markup style true blocks)
  Traced.log ⟨.debug, .rendering, Text.ofString "上下文 HTML 渲染完成", [("length", .ofNat body.length)]⟩
  return template lang title body

end MdxLocalization.Page
