import MdxLocalization.Markdown.Nesting

/-!
# Reading blocks

The blocks of a text are read one after the other; for each, the rules are tried in a fixed order,
and a paragraph is what no other rule takes. Blocks may nest twenty deep. What is nested deeper is
left out.
-/

namespace MdxLocalization.Markdown

/-- Tries rules in order until one gives a block. -/
def firstFound : List (Unit → Except PastEnd Found) → Except PastEnd Found
  | [] => .ok none
  | rule :: rest => do
    match ← rule () with
    | some found => return some found
    | none => firstFound rest

namespace Scope

/-- The block that starts at a line. `inner` reads the content of quotes and directives, and
`innerItem` that of list items. -/
def block (inner innerItem : Reader) (s : Scope) (start stop : Nat) :
    Except PastEnd (Block × Nat) := do
  let found ← firstFound [
    fun _ => s.frontMatter? start stop,
    fun _ => s.table? start stop,
    fun _ => s.indentedCode? start stop,
    fun _ => s.directiveBlock? inner start stop,
    fun _ => s.fencedCode? start stop,
    fun _ => s.quote? inner start stop,
    fun _ => .ok (s.thematicBreak? start),
    fun _ => s.list? innerItem start stop,
    fun _ => s.definitionBlock? start,
    fun _ => s.htmlBlock? start stop,
    fun _ => .ok (s.atxHeadingBlock? start),
    fun _ => s.underlinedHeading? start stop]
  match found with
  | some result => return result
  | none => s.paragraph start

/-- Reads blocks from a line on. `gap` tells whether a blank line has been seen. The budget bounds
the number of blocks. -/
def blocksFrom (inner innerItem : Reader) (deep : Bool) (s : Scope) (stop : Nat) :
    Nat → Bool → Bool → Nat → Except PastEnd Parsed
  | 0, _, tight, line => .ok ⟨[], line, tight⟩
  | budget + 1, gap, tight, line => do
    if stop ≤ line then return ⟨[], line, tight⟩
    let line := s.skipEmpty line
    if stop ≤ line || s.isOutdented line then return ⟨[], line, tight⟩
    if deep then return ⟨[], stop, tight⟩
    let (block, next) ← s.block inner innerItem line stop
    let tight := !gap
    let gap := gap || (decide (next < stop + 1) && s.isEmpty (next - 1))
    let skips := decide (next < stop) && s.isEmpty next
    let rest ← blocksFrom inner innerItem deep s stop budget (gap || skips) tight
      (if skips then next + 1 else next)
    return { rest with blocks := block :: rest.blocks }

/-- Reads the blocks of a range of lines where `depth` more levels may be nested. -/
def readBlocks : Nat → Reader
  | 0, s, start, stop =>
    let refuse : Reader := fun _ line _ => .ok ⟨[], line, true⟩
    blocksFrom refuse refuse true s stop (stop - start + 1) false true start
  | 1, s, start, stop =>
    blocksFrom (readBlocks 0) (readBlocks 0) false s stop (stop - start + 1) false true start
  | depth + 2, s, start, stop =>
    blocksFrom (readBlocks (depth + 1)) (readBlocks depth) false s stop (stop - start + 1) false
      true start

end Scope

/-- How deep blocks may nest. -/
def maxDepth : Nat := 20

/-- The text that block rules see: line breaks are line feeds, and a null character is replaced. -/
def normalizeSource (t : Text) : Text :=
  (Text.normalizeBreaks t).map fun c => if c.toNat = 0 then '\uFFFD' else c

def blocks (t : Text) : Except PastEnd (List Block) := do
  let s := Scope.ofText (normalizeSource t)
  return (← s.readBlocks maxDepth 0 s.lines.size).blocks

end MdxLocalization.Markdown
