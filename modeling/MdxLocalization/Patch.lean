import MdxLocalization.Change
import MdxLocalization.Text.Upper

/-!
# Patching

Applying a list of changes replaces the span of each by its text. All spans are checked first: each
has to fit the text, and no two may overlap. The changes are then applied from the last to the
first, so that a replacement never moves a span that is still to be replaced.

`validate` makes the same two checks without replacing anything; it looks at the changes in
ascending order, so the overlapping pair that it names may be another one.
-/

namespace MdxLocalization

/-- Why a list of changes cannot be applied. -/
inductive PatchError where
  | invalidRange (span : Span)
  | overlapping (first second : Span)
  deriving DecidableEq, Repr

namespace PatchError

def message : PatchError → Text
  | .invalidRange span => Text.ofString "无效的偏移区间: " ++ span.pairText
  | .overlapping first second =>
    Text.ofString "变更区间重叠: " ++ first.pairText ++ Text.ofString " 与 " ++ second.pairText

end PatchError

namespace Patch

/-- Upper case with two points for every space, so that patched text stands out. -/
def standOut (t : Text) : Text :=
  (Text.upper t).flatMap fun c => if c = ' ' then ['.', '.'] else [c]

/-- What is done to the text of a change before it is put in. -/
def textTransform (emphasized : Bool) : Text → Text := if emphasized then standOut else id

def replace (transform : Text → Text) (content : Text) (change : Change) :
    Except PatchError Text :=
  if change.span.Fits content.length then
    .ok (content.take change.span.start.toNat ++ transform change.text ++
      content.drop change.span.stop.toNat)
  else .error (.invalidRange change.span)

/-- The first change whose span does not fit a text of `n` characters. -/
def checkRanges (n : Nat) (changes : List Change) : Except PatchError Unit :=
  match changes.find? fun c => !decide (c.span.Fits n) with
  | some c => .error (.invalidRange c.span)
  | none => .ok ()

/-- Reports the first neighbours, of changes in descending order, that overlap. -/
def checkDescending : List Change → Except PatchError Unit
  | later :: earlier :: rest =>
    if earlier.span.Overlaps later.span then .error (.overlapping earlier.span later.span)
    else checkDescending (earlier :: rest)
  | _ => .ok ()

/-- Reports the first neighbours, of changes in ascending order, that overlap. -/
def checkAscending : List Change → Except PatchError Unit
  | first :: second :: rest =>
    if first.span.Overlaps second.span then .error (.overlapping first.span second.span)
    else checkAscending (second :: rest)
  | _ => .ok ()

/-- The changes by descending start; those that start together keep their order. -/
def descending (changes : List Change) : List Change :=
  changes.mergeSort fun a b => decide (b.span.start ≤ a.span.start)

/-- The changes by ascending start and then end; equal spans keep their order. -/
def ascending (changes : List Change) : List Change :=
  changes.mergeSort fun a b =>
    decide (a.span.start < b.span.start ∨ a.span.start = b.span.start ∧ a.span.stop ≤ b.span.stop)

/-- Applies all changes to a text, or none of them. -/
def apply (transform : Text → Text) (content : Text) (changes : List Change) :
    Except PatchError Text := do
  checkRanges content.length changes
  let ordered := descending changes
  checkDescending ordered
  ordered.foldlM (replace transform) content

def validate (changes : List Change) (source : Text) : Except PatchError Unit := do
  checkRanges source.length changes
  checkAscending (ascending changes)

end Patch

end MdxLocalization
