import MdxLocalization.Change
import MdxLocalization.Extract.Error
import MdxLocalization.Log.Event

/-!
# The title in the front matter

The metadata block of a document may have a line `title:` with a value. The value extends to the
last character that is no blank; matching quotes around it are not part of the title.
-/

namespace MdxLocalization.Extract

/-- Where the title of a value stands: its position and its text. Blanks after the colon are
skipped, but a value of blanks alone keeps its last one. -/
def titleOnLine? (line : Text) : Option (Nat × Text) :=
  if Text.startsWith line (Text.ofString "title:") then
    let body := line.drop 6
    let isBlank := fun c : Char => c == ' ' || c == '\t'
    let lead := Text.countWhile isBlank body
    match body.drop lead with
    | [] => if lead = 0 then none else some (6 + lead - 1, body.drop (lead - 1))
    | c :: rest =>
      let rest := Text.dropEndWhile (fun c => isBlank c || c == '\r') rest
      some (6 + lead, c :: rest)
  else none

/-- The first title in the lines of a block of which the first stands at `offset`. -/
def titleInLines? (offset : Nat) : List Text → Option (Nat × Text)
  | [] => none
  | line :: rest =>
    match titleOnLine? line with
    | some (start, value) => some (offset + start, value)
    | none => titleInLines? (offset + line.length + 1) rest

/-- A title without one pair of quotes around it. -/
def unquote (start : Nat) (value : Text) : Nat × Text :=
  match value.head?, value.getLast? with
  | some first, some last =>
    if 2 ≤ value.length && (first == '\'' || first == '"') && first == last then
      (start + 1, (value.drop 1).dropLast)
    else (start, value)
  | _, _ => (start, value)

/-- What the front matter says about the title. -/
inductive FrontMatterTitle where
  | noBlock
  | noTitle
  | emptyTitle
  | title (change : Change)
  deriving Repr

/-- The number of characters of a delimiter line, from which the place of a block is reckoned that
does not record where its value starts. -/
def delimiterLength : Int := 4

/-- The title in the front matter of a document. -/
def frontMatterTitle (root : Node) : Except MissingPosition FrontMatterTitle :=
  match root.childOfKind? .yaml with
  | none => .ok .noBlock
  | some block =>
    match titleInLines? 0 (Text.splitOn '\n' (block.info.value.getD [])) with
    | none => .ok .noTitle
    | some (start, value) =>
      let (start, value) := unquote start value
      if value.isEmpty then .ok .emptyTitle
      else do
        let span ← block.info.spanOrFail
        let blockStart : Int :=
          match block.info.dataField? "valueStart" with
          | some (.integer n) => n
          | _ => span.start + delimiterLength
        let start : Int := blockStart + start
        return .title
          { kind := .title, text := value, span := ⟨start, start + value.length⟩,
            notes := Text.ofString "title for document" }

/-- The changes of the front matter, at most one. -/
def FrontMatterTitle.changes : FrontMatterTitle → List Change
  | .title change => [change]
  | _ => []

/-- The event that reports what was found. -/
def FrontMatterTitle.events : FrontMatterTitle → List LogEvent
  | .noBlock => [⟨.info, .frontMatter, Text.ofString "未找到 frontmatter 元数据块", []⟩]
  | .noTitle => [⟨.info, .frontMatter, Text.ofString "frontmatter 中没有 title 字段", []⟩]
  | .emptyTitle => [⟨.info, .frontMatter, Text.ofString "frontmatter 中的 title 为空", []⟩]
  | .title change =>
    [⟨.info, .frontMatter, Text.ofString "已提取文档标题", [("title", .text change.text)]⟩]

end MdxLocalization.Extract
