import MdxLocalization.Markdown.Phrase

/-!
# Emphasis

Asterisks and underscores are delimiters: each may open emphasis, close it, or both, depending on
its surroundings. A closing delimiter is matched with the nearest opening one before it. Where a
delimiter could do both, the lengths of the two runs must not add up to a multiple of three, unless
both are multiples of three. Two matched pairs directly within each other make strong emphasis.

Searches that failed set a bound below which later searches need not look, and matched stretches are
jumped over.
-/

namespace MdxLocalization.Markdown

/-- A delimiter in a run of `length` of them. -/
structure Delimiter where
  char : Char
  length : Nat
  canOpen : Bool
  canClose : Bool
  /-- Its place in the sequence of pieces. -/
  place : Nat
  /-- The delimiter that closes what this one opens. -/
  partner : Option Nat := none
  /-- How many delimiters before this one are passed over in a search. -/
  jump : Nat := 0
  deriving Inhabited, Repr

namespace Delimiter

/-- Whether the rule of three forbids a pair. -/
def isOdd (opener closer : Delimiter) : Bool :=
  (opener.canClose || closer.canOpen) && (opener.length + closer.length) % 3 == 0 &&
    (opener.length % 3 != 0 || closer.length % 3 != 0)

def matches? (opener closer : Delimiter) : Bool :=
  opener.char == closer.char && opener.canOpen && opener.partner.isNone && !isOdd opener closer

end Delimiter

/-- A bound for searches: the closers it is for, by mark, by whether they may open, and by the
length of their run modulo three, and the number of delimiters that need not be looked at. -/
structure SearchBound where
  char : Char
  canOpen : Bool
  residue : Nat
  below : Nat

/-- The state of matching delimiters. Delimiters are known by their position. -/
structure Matching where
  delimiters : Array Delimiter
  bounds : List SearchBound := []
  /-- The first delimiter of the current run. -/
  header : Nat := 0
  /-- The place after that of the delimiter seen last, unless it was matched. -/
  nextPlace : Option Nat := none

namespace Matching

/-- The delimiter at a position. -/
def get (m : Matching) (i : Nat) : Delimiter := m.delimiters[i]?.getD default

def change (m : Matching) (i : Nat) (f : Delimiter → Delimiter) : Matching :=
  { m with delimiters := m.delimiters.modify i f }

def isBoundFor (closer : Delimiter) (b : SearchBound) : Bool :=
  b.char == closer.char && b.canOpen == closer.canOpen && b.residue == closer.length % 3

/-- How many delimiters a search for the opener of a closer need not look at. -/
def boundFor (m : Matching) (closer : Delimiter) : Nat :=
  ((m.bounds.find? (isBoundFor closer)).map (·.below)).getD 0

/-- Looks for an opener among the first `count` delimiters, the last ones first, down to a bound.
The budget bounds the number of steps. -/
def findOpener? (m : Matching) (closer : Delimiter) (bound : Nat) : Nat → Nat → Option Nat
  | 0, _ => none
  | _ + 1, 0 => none
  | budget + 1, count + 1 =>
    if count < bound then none
    else
      let opener := m.get count
      if opener.matches? closer then some count
      else findOpener? m closer bound budget (count - opener.jump)

/-- Marks a pair as matched. -/
def pair (m : Matching) (opener closer : Nat) : Matching :=
  let before :=
    if 0 < opener && !(m.get (opener - 1)).canOpen then (m.get (opener - 1)).jump + 1 else 0
  let m := m.change closer fun d => { d with canOpen := false, jump := closer - opener + before }
  let m := m.change opener fun d =>
    { d with canClose := false, partner := some closer, jump := before }
  { m with nextPlace := none }

/-- Takes the next delimiter: moves the start of the run, and matches a closer. -/
def step (m : Matching) (i : Nat) : Matching :=
  let d := m.get i
  let continues := (m.get m.header).char == d.char && m.nextPlace == some d.place
  let m := { m with header := if continues then m.header else i, nextPlace := some (d.place + 1) }
  if !d.canClose then m
  else
    let start := m.header - (m.get m.header).jump
    match m.findOpener? d (m.boundFor d) (i + 1) start with
    | some opener => m.pair opener i
    | none =>
      { m with bounds := ⟨d.char, d.canOpen, d.length % 3, start⟩ :: m.bounds }

def ofDelimiters (ds : Array Delimiter) : Matching :=
  (List.range ds.size).foldl step ⟨ds, [], 0, none⟩

end Matching

/-- A piece of a sequence in which emphasis has not been found yet: a phrase, or a delimiter that
may turn out to be plain text. -/
inductive Piece where
  | phrase (p : Phrase)
  | delimiter (char : Char) (length : Nat) (canOpen canClose : Bool)

/-- The delimiters of a sequence. `place` is the place of the first piece. -/
def delimitersOf (place : Nat) : List Piece → List Delimiter
  | [] => []
  | .delimiter char length canOpen canClose :: rest =>
    { char, length, canOpen, canClose, place } :: delimitersOf (place + 1) rest
  | .phrase _ :: rest => delimitersOf (place + 1) rest

/-- What a delimiter becomes, by place: the start or end of emphasis, or nothing where it has been
taken into strong emphasis. -/
abbrev Outcomes := List (Nat × Option Phrase)

/-- The outcomes of the first `count` delimiters, the last ones first. The budget bounds the number
of steps. -/
def outcomes (ds : Array Delimiter) : Nat → Nat → Outcomes
  | 0, _ => []
  | _ + 1, 0 => []
  | budget + 1, i + 1 =>
    let d := ds[i]?.getD default
    match d.partner with
    | none => outcomes ds budget i
    | some j =>
      let closer := ds[j]?.getD default
      let outer := ds[i - 1]?.getD default
      let beyond := ds[j + 1]?.getD default
      let strong := 0 < i && outer.partner == some (j + 1) && outer.char == d.char &&
        outer.place + 1 == d.place && beyond.place == closer.place + 1
      let ends := [(d.place, some (Phrase.emphasisStart strong)),
        (closer.place, some (Phrase.emphasisEnd strong))]
      if strong then
        ends ++ [(outer.place, none), (beyond.place, none)] ++ outcomes ds budget (i - 1)
      else ends ++ outcomes ds budget i

/-- The phrases of a sequence, given what its delimiters become. -/
def resolve (found : Outcomes) (place : Nat) : List Piece → List Phrase
  | [] => []
  | .phrase p :: rest => p :: resolve found (place + 1) rest
  | .delimiter char _ _ _ :: rest =>
    let phrase :=
      match found.lookup place with
      | some outcome => outcome.toList
      | none => [.text [char]]
    phrase ++ resolve found (place + 1) rest

/-- Finds the emphasis in a sequence of pieces. -/
def phrasesOfPieces (pieces : List Piece) : List Phrase :=
  let ds := (Matching.ofDelimiters (delimitersOf 0 pieces).toArray).delimiters
  resolve (outcomes ds (ds.size + 1) ds.size) 0 pieces

end MdxLocalization.Markdown
