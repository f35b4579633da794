import MdxLocalization.Text.Basic

/-!
# Spans

A span is a half-open interval of character positions. Its ends are integers and are not checked on
construction: spans arrive from translated files, and a span that does not fit a text has to be
representable so that it can be refused.
-/

namespace MdxLocalization

/-- The positions `start ≤ i < stop`. -/
structure Span where
  start : Int
  stop : Int
  deriving DecidableEq, Repr, Inhabited

namespace Span

/-- The number of positions, negative when the ends are out of order. -/
def length (s : Span) : Int := s.stop - s.start

/-- The span is not empty and lies within a text of `n` characters. -/
def Fits (s : Span) (n : Nat) : Prop := 0 ≤ s.start ∧ s.start < s.stop ∧ s.stop ≤ n

instance (s : Span) (n : Nat) : Decidable (s.Fits n) := by unfold Fits; infer_instance

/-- Each span starts before the other one ends. -/
def Overlaps (s t : Span) : Prop := s.start < t.stop ∧ t.start < s.stop

instance (s t : Span) : Decidable (s.Overlaps t) := by unfold Overlaps; infer_instance

/-- The characters of a text in the span; signed positions are read as in `Text.window`. -/
def slice (s : Span) (t : Text) : Text := Text.window t s.start s.stop

def shiftBy (s : Span) (distance : Int) : Span := ⟨s.start + distance, s.stop + distance⟩

/-- The span between two natural positions. -/
def ofNats (start stop : Nat) : Span := ⟨start, stop⟩

/-- The span as a pair in round brackets. -/
def pairText (s : Span) : Text :=
  '(' :: Text.ofInt s.start ++ ',' :: ' ' :: Text.ofInt s.stop ++ [')']

end Span

end MdxLocalization
