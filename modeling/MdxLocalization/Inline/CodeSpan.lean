import MdxLocalization.Text.Blank

/-!
# Code spans

A code span starts with a run of backticks and ends with the next run of the same length. The
functions look at a text from its first character on and answer with lengths, so that a result does
not depend on where the text stands in a document.
-/

namespace MdxLocalization.Inline

/-- The backtick. -/
def tick : Char := '\x60'

/-- The position of the first maximal run of exactly `run` backticks. `offset` is the position of
the text, and `count` the number of backticks directly before it. -/
def closingRun? (run : Nat) (offset count : Nat) : Text → Option Nat
  | [] => if count = run then some (offset - count) else none
  | c :: rest =>
    if c = tick then closingRun? run (offset + 1) (count + 1) rest
    else if count = run then some (offset - count)
    else closingRun? run (offset + 1) 0 rest

/-- The value of a code span with a given inside: one space is taken off each end when both ends
have one and the inside is not blank. -/
def codeValue (inner : Text) : Text :=
  if Text.startsWith inner [' '] && Text.endsWith inner [' '] && !Text.isBlankText inner then
    (inner.drop 1).dropLast
  else inner

def codeSpan? (t : Text) : Option (Text × Nat) :=
  let run := Text.countWhile (· == tick) t
  match closingRun? run 0 0 (t.drop run) with
  | none => none
  | some inner => some (codeValue ((t.drop run).take inner), run + inner + run)

end MdxLocalization.Inline
