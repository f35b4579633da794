import MdxLocalization.Inline.CodeSpan
import MdxLocalization.Markdown.Autolink
import MdxLocalization.Markdown.Definition
import MdxLocalization.Markdown.Emphasis
import MdxLocalization.Markdown.Punctuation

/-!
# Phrases of a text

The content of a block is scanned from left to right. At each position the rules for breaks,
escapes, code, emphasis marks, links, images, HTML and references are tried; what none of them takes
is plain text. Where a label ends is found by skipping over the phrases in it, and since skipping a
link means finding its label, skipping is bounded to twenty levels; beyond that it gives up on the
whole text.

What has been skipped once is remembered by position, so that labels within labels do not cost more
and more. Whether a run of backticks opens a code span depends on the text after it alone, and so is
the same while a label is looked for and when the text is read.
-/

namespace MdxLocalization.Markdown

/-- What a label refers to. -/
structure Reference where
  key : Text
  url : Text
  title : Text
  deriving Repr

/-- The text that is scanned. -/
structure Running where
  chars : Array Char
  references : List Reference

/-- What is remembered from earlier scanning: where the phrase at a position ends. -/
abbrev Memory := List (Nat × Nat)

/-- What a rule finds. -/
inductive Finding where
  | plain (t : Text)
  | pieces (ps : List Piece)
  | lineBreak
  /-- A link with the positions of its label. -/
  | link (start stop : Nat) (url title : Text)
  /-- An image with the positions of its label. -/
  | image (start stop : Nat) (url title : Text)

/-- What a rule finds at a position, and the position after it. -/
abbrev Finding? := Option (Finding × Nat)

/-- A way to skip the phrase at a position of a text that ends at a given position. -/
abbrev Skipper := Nat → Nat → Memory → Nat × Memory

namespace Running

/-- The text between two positions. -/
def slice (s : Running) (start stop : Nat) : Text := (s.chars.extract start stop).toList

/-- The text from a position on. -/
def after (s : Running) (start : Nat) : Text := s.slice start s.chars.size

/-- Whether a character stands at a position before `stop`. -/
def has (s : Running) (c : Char) (position stop : Nat) : Bool :=
  decide (position < stop) && s.chars[position]? == some c

/-- The first position from which `p` does not hold. -/
def skipWhile (s : Running) (p : Char → Bool) (position stop : Nat) : Nat :=
  position + Text.countWhile p (s.slice position stop)

/-- The position after spaces and line breaks. -/
def skipSpace (s : Running) (position stop : Nat) : Nat :=
  s.skipWhile (fun c => isSpace c || c == '\n') position stop

/-- The characters at which a rule may apply. -/
def isMark (c : Char) : Bool :=
  "\n!#$%&*+-:<=>@[\\]^_\x60\x7b\x7d~".toList.contains c

/-- A stretch of characters at which no rule applies. -/
def plain? (s : Running) (position stop : Nat) : Finding? :=
  let next := s.skipWhile (fun c => !isMark c) position stop
  if next = position then none else some (.plain (s.slice position next), next)

/-- A line break; the spaces that begin the next line belong to it. -/
def lineBreak? (s : Running) (position stop : Nat) : Finding? :=
  if s.has '\n' position stop then some (.lineBreak, s.skipWhile isSpace (position + 1) stop)
  else none

/-- A backslash with the character that it escapes, or with a line break. -/
def escape? (s : Running) (position stop : Nat) : Finding? :=
  if s.has '\\' position stop && position + 1 < stop then
    (s.chars[position + 1]?).map fun c =>
      if c = '\n' then (.pieces [.phrase .hardBreak], s.skipWhile isSpace (position + 2) stop)
      else
        let t := if Entity.isEscapable c then [c] else ['\\', c]
        (.pieces [.phrase (.escaped t)], position + 2)
  else none

/-- The content of a code span: line breaks are spaces, and one space at each end does not count
unless there is nothing else. -/
def codeContent (t : Text) : Text :=
  let t := t.map fun c => if c = '\n' then ' ' else c
  if t.head? = some ' ' && t.getLast? = some ' ' && !Text.isBlankText t then (t.drop 1).dropLast
  else t

/-- A code span, or a run of backticks that opens none. The span ends with the next run of the same
length, wherever that stands in the text. -/
def code? (s : Running) (position stop : Nat) : Finding? :=
  if s.has '\x60' position stop then
    let next := s.skipWhile (· == '\x60') position stop
    let run := next - position
    match Inline.closingRun? run 0 0 (s.after next) with
    | some length =>
      let content := codeContent (s.slice next (next + length))
      some (.pieces [.phrase (.code content)], next + length + run)
    | none => some (.plain (s.slice position next), next)
  else none

/-- A run of emphasis marks. Asterisks may stand within words. -/
def delimiters? (s : Running) (position stop : Nat) : Finding? :=
  match s.chars[position]? with
  | none => none
  | some c =>
    if c = '*' || c = '_' then
      let next := s.skipWhile (· == c) position stop
      let last := if position = 0 then ' ' else s.chars[position - 1]?.getD ' '
      let following := if next < stop then s.chars[next]?.getD ' ' else ' '
      let lastIsPunctuation := isPunctuation last
      let nextIsPunctuation := isPunctuation following
      let left := !(isFlankSpace following ||
        (nextIsPunctuation && !(isFlankSpace last || lastIsPunctuation)))
      let right := !(isFlankSpace last ||
        (lastIsPunctuation && !(isFlankSpace following || nextIsPunctuation)))
      let inWords := c == '*'
      let canOpen := left && (inWords || !right || lastIsPunctuation)
      let canClose := right && (inWords || !left || nextIsPunctuation)
      let length := next - position
      some (.pieces (List.replicate length (.delimiter c length canOpen canClose)), next)
    else none

/-- An automatic link. -/
def autolink? (s : Running) (position stop : Nat) : Finding? :=
  if s.has '<' position stop then
    let next := s.skipWhile (fun c => c != '<' && c != '>') (position + 1) stop
    if s.has '>' next stop then
      let content := s.slice (position + 1) next
      match Autolink.target? content with
      | none => none
      | some target =>
        let url := Address.normalize target
        if Address.isAllowed url then
          some (.pieces [.phrase (.link url [] [.text (Address.display content)])], next + 1)
        else none
    else none
  else none

def html? (s : Running) (position stop : Nat) : Finding? :=
  if s.has '<' position stop && position + 2 < stop then
    (HtmlTag.length? (s.after position)).map fun length =>
      let next := position + length
      (.pieces [.phrase (.html (s.slice position next))], next)
  else none

/-- A character reference. -/
def entity? (s : Running) (position stop : Nat) : Finding? :=
  if s.has '&' position stop && position + 1 < stop then
    (Entity.inText? (s.after position)).map fun (c, rest) =>
      (.pieces [.phrase (.escaped [c])], s.chars.size - rest.length)
  else none

/-- Looks for the bracket that closes a label, by skipping the phrases in it; `level` counts the
open brackets. Where `alone` holds, a link in the label ends the search. The budget bounds the
number of steps. -/
def findLabelStop (s : Running) (skip : Skipper) (alone : Bool) (stop : Nat) :
    Nat → Nat → Nat → Memory → Option Nat × Memory
  | 0, _, _, m => (none, m)
  | budget + 1, level, position, m =>
    if stop ≤ position then (none, m)
    else
      let c := s.chars[position]?
      let level := if c = some ']' then level - 1 else level
      if c = some ']' && level = 0 then (some position, m)
      else
        let (next, m) := skip position stop m
        if c = some '[' then
          if next = position + 1 then findLabelStop s skip alone stop budget (level + 1) next m
          else if alone then (none, m)
          else findLabelStop s skip alone stop budget level next m
        else findLabelStop s skip alone stop budget level next m

/-- The position of the bracket that closes the label whose opening bracket stands at a position. -/
def labelStop (s : Running) (skip : Skipper) (alone : Bool) (position stop : Nat) (m : Memory) :
    Option Nat × Memory :=
  s.findLabelStop skip alone stop (stop - position + 1) 1 (position + 1) m

/-- What stands in brackets after a label. -/
inductive Tail where
  | closed (url title : Text) (next : Nat)
  /-- The closing bracket is missing where it should stand, before `next`. -/
  | open (next : Nat)
  /-- The text ends. -/
  | missing

/-- Reads a destination and title behind the opening bracket. Only images have a title without a
destination. -/
def tail (s : Running) (isImage : Bool) (position stop : Nat) : Tail :=
  let start := s.skipSpace position stop
  if stop ≤ start then .missing
  else
    let destination := Destination.read? (s.slice start stop)
    let (url, afterUrl) :=
      match destination with
      | some (t, length) =>
        let url := Address.normalize t
        if Address.isAllowed url then (url, start + length) else ([], start)
      | none => ([], start)
    let (title, finish) :=
      if isImage || destination.isSome then
        let titleStart := s.skipSpace afterUrl stop
        match Destination.readTitle (s.slice titleStart stop) with
        | .complete title length =>
          if titleStart = afterUrl then ([], titleStart)
          else (title, s.skipSpace (titleStart + length) stop)
        | _ => ([], titleStart)
      else ([], afterUrl)
    if s.has ')' finish stop then .closed url title (finish + 1) else .open (finish + 1)

/-- What the label between two positions refers to, where `position` may be that of the opening
bracket of another label, which then counts instead unless it is empty. The result has the position
after the labels. -/
def reference (s : Running) (skip : Skipper) (start finish position stop : Nat) (m : Memory) :
    Option (Reference × Nat) × Memory :=
  if s.references.isEmpty then (none, m)
  else
    let (second, m) :=
      if s.has '[' position stop then s.labelStop skip false position stop m else (none, m)
    let (label, next) :=
      match second with
      | some last => (s.slice (position + 1) last, last + 1)
      | none => ([], finish + 1)
    let key := labelKey (if label.isEmpty then s.slice start finish else label)
    ((s.references.find? (·.key = key)).map fun r => (r, next), m)

/-- A link. -/
def link? (s : Running) (skip : Skipper) (position stop : Nat) (m : Memory) : Finding? × Memory :=
  if !s.has '[' position stop then (none, m)
  else
    match s.labelStop skip true position stop m with
    | (none, m) => (none, m)
    | (some finish, m) =>
      let start := position + 1
      let byReference := fun (next : Nat) =>
        match s.reference skip start finish next stop m with
        | (some (r, next), m) => (some (.link start finish r.url r.title, next), m)
        | (none, m) => (none, m)
      if s.has '(' (finish + 1) stop then
        match s.tail false (finish + 2) stop with
        | .closed url title next => (some (.link start finish url title, next), m)
        | .open next => byReference next
        | .missing => (none, m)
      else byReference (finish + 1)

/-- An image. -/
def image? (s : Running) (skip : Skipper) (position stop : Nat) (m : Memory) : Finding? × Memory :=
  if !(s.has '!' position stop && s.has '[' (position + 1) stop) then (none, m)
  else
    match s.labelStop skip false (position + 1) stop m with
    | (none, m) => (none, m)
    | (some finish, m) =>
      let start := position + 2
      if s.has '(' (finish + 1) stop then
        match s.tail true (finish + 2) stop with
        | .closed url title next => (some (.image start finish url title, next), m)
        | .open _ | .missing => (none, m)
      else
        match s.reference skip start finish (finish + 1) stop m with
        | (some (r, next), m) => (some (.image start finish r.url r.title, next), m)
        | (none, m) => (none, m)

/-- What stands at a position. While skipping, emphasis marks do not count. -/
def finding (s : Running) (skip : Skipper) (skipping : Bool) (position stop : Nat) (m : Memory) :
    Finding? × Memory :=
  let early := s.plain? position stop <|> s.lineBreak? position stop <|>
    s.escape? position stop <|> s.code? position stop <|>
    (if skipping then none else s.delimiters? position stop)
  if early.isSome then (early, m)
  else
    match s.link? skip position stop m with
    | (some found, m) => (some found, m)
    | (none, m) =>
      match s.image? skip position stop m with
      | (some found, m) => (some found, m)
      | (none, m) =>
        (s.autolink? position stop <|> s.html? position stop <|> s.entity? position stop, m)

/-- Skips the phrase at a position, where `depth` more levels may be skipped. -/
def skip (s : Running) : Nat → Skipper
  | depth, position, stop, m =>
    match m.lookup position with
    | some next => (next, m)
    | none =>
      let (next, m) :=
        match depth with
        | 0 => (stop + 1, m)
        | depth + 1 =>
          match s.finding (skip s depth) true position stop m with
          | (some (_, next), m) => (next, m)
          | (none, m) => (position + 1, m)
      (next, (position, next) :: m)

/-- How deep phrases may nest. -/
def maxDepth : Nat := 20

/-- The text read since the last piece, which is given in reverse, as a piece before others. -/
def flush (pending : Text) (pieces : List Piece) : List Piece :=
  if pending.isEmpty then pieces else .phrase (.text pending.reverse) :: pieces

/-- The break at the end of a line, and the text before it without the spaces at its end. Two spaces
make the break a hard one. -/
def lineEnd (pending : Text) : Phrase × Text :=
  let rest := pending.dropWhile (· == ' ')
  (if 2 ≤ pending.length - rest.length then .hardBreak else .softBreak, rest)

/-- The pieces of the text between two positions. `pending` is the plain text read before, in
reverse, and `done` are the pieces before it, in reverse. The budget bounds the number of steps and
of levels. -/
def piecesFrom (s : Running) (stop : Nat) :
    Nat → Nat → Nat → Text → List Piece → Memory → List Piece × Memory
  | 0, _, _, pending, done, m => ((flush pending done).reverse, m)
  | budget + 1, depth, position, pending, done, m =>
    if stop ≤ position then ((flush pending done).reverse, m)
    else
      let (found, m) :=
        if depth = 0 then (none, m) else s.finding (s.skip depth) false position stop m
      match found with
      | none =>
        piecesFrom s stop budget depth (position + 1)
          ((s.chars[position]?).toList ++ pending) done m
      | some (finding, next) =>
        match finding with
        | .plain t => piecesFrom s stop budget depth next (t.reverse ++ pending) done m
        | .pieces ps =>
          piecesFrom s stop budget depth next [] (ps.reverse ++ flush pending done) m
        | .lineBreak =>
          let (phrase, pending) := lineEnd pending
          piecesFrom s stop budget depth next [] (.phrase phrase :: flush pending done) m
        | .link start finish url title =>
          let (inner, m) := piecesFrom s finish budget (depth - 1) start [] [] m
          let phrase := Phrase.link url title (phrasesOfPieces inner)
          piecesFrom s stop budget depth next [] (.phrase phrase :: flush pending done) m
        | .image start finish url title =>
          let label : Running := { s with chars := s.chars.extract start finish }
          let (inner, _) := piecesFrom label label.chars.size budget maxDepth 0 [] [] []
          let phrase := Phrase.image url title (phrasesOfPieces inner)
          piecesFrom s stop budget depth next [] (.phrase phrase :: flush pending done) m

end Running

def phrases (references : List Reference) (t : Text) : List Phrase :=
  let s : Running := ⟨t.toArray, references⟩
  phrasesOfPieces (s.piecesFrom t.length (t.length + 1) Running.maxDepth 0 [] [] []).1

end MdxLocalization.Markdown
