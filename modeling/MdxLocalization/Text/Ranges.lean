/-!
# Character sets by ranges

A set of characters is given by its ranges of code points, in increasing order and without overlap;
membership looks through the ranges until one ends at or after the code point.
-/

namespace MdxLocalization.Text

/-- Inclusive ranges of code points in increasing order. -/
abbrev Ranges := List (Nat × Nat)

/-- Whether a code point lies in one of the ranges. -/
def Ranges.contains : Ranges → Nat → Bool
  | [], _ => false
  | (low, high) :: rest, n =>
    if n ≤ high then decide (low ≤ n) else Ranges.contains rest n

/-- How far a code point lies from the start of the range that holds it. -/
def Ranges.offset? : Ranges → Nat → Option Nat
  | [], _ => none
  | (low, high) :: rest, n =>
    if n ≤ high then (if low ≤ n then some (n - low) else none) else Ranges.offset? rest n

end MdxLocalization.Text
