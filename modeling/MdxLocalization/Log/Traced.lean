import MdxLocalization.Log.Event

/-!
# Computations that log

A traced computation may fail and logs events on its way. What was logged before a failure is kept.
-/

namespace MdxLocalization

/-- A computation that logs and may fail. -/
abbrev Traced (ε : Type) := ExceptT ε (StateM (List LogEvent))

namespace Traced

/-- Logs an event. -/
def log {ε : Type} (e : LogEvent) : Traced ε Unit := modify fun events => events ++ [e]

/-- Logs several events. -/
def logAll {ε : Type} (es : List LogEvent) : Traced ε Unit := modify fun events => events ++ es

/-- A computation that logs nothing. -/
def ofExcept {ε α : Type} : Except ε α → Traced ε α
  | .ok a => pure a
  | .error e => throw e

/-- The outcome of a computation, and the events it logs. -/
def outcome {ε α : Type} (x : Traced ε α) : Except ε α × List LogEvent := x.run []

/-- A computation with another kind of error. -/
def mapError {ε δ α : Type} (f : ε → δ) (x : Traced ε α) : Traced δ α := fun events =>
  match x events with
  | (.ok a, events) => (.ok a, events)
  | (.error e, events) => (.error (f e), events)

end Traced

end MdxLocalization
