import MdxLocalization.Config.Settings
import MdxLocalization.Log.Event
import MdxLocalization.Text.Quoted
import MdxLocalization.Text.Upper

/-!
# Which events are shown

A threshold is given by the name of a level, in capitals or not; events below it are not shown. The
level `NOTSET` leaves the decision to the standard, which shows warnings.
-/

namespace MdxLocalization

/-- How and from what rank on events are shown. -/
structure LogThreshold where
  format : LogFormat
  rank : Nat
  deriving Repr

namespace LogThreshold

/-- The ranks of the names of levels. -/
def ranks : List (String × Nat) :=
  [("CRITICAL", 50), ("FATAL", 50), ("ERROR", 40), ("WARN", 30), ("WARNING", 30), ("INFO", 20),
    ("DEBUG", 10), ("NOTSET", 30)]

/-- The message about a level that there is not. -/
def unknownLevel (level : Text) : Text := Text.ofString "Unknown level: " ++ Text.quoted level

/-- The threshold for a level, or the level in capitals if there is no such one. -/
def ofLevel (format : LogFormat) (level : Text) : Except Text LogThreshold :=
  let level := Text.upper level
  match ranks.find? fun entry => Text.ofString entry.1 = level with
  | some entry => .ok ⟨format, entry.2⟩
  | none => .error level

/-- The event that says that events are shown from now on. -/
def readyEvent (format : LogFormat) (level : Text) : LogEvent :=
  ⟨.debug, .logging, Text.ofString "日志系统已配置完成。",
    [("log_format", .ofString format.name), ("app_log_level", .text (Text.upper level))]⟩

def shown (t : LogThreshold) (events : List LogEvent) : List LogEvent :=
  events.filter fun e => t.rank ≤ e.level.rank

end LogThreshold

end MdxLocalization
