import MdxLocalization.Json.Value

/-!
# Log events

An event has a level, the component it comes from, a message, and named values. Operations return
the events they cause in order; what is shown is decided by whoever runs them.
-/

namespace MdxLocalization

/-- The weight of an event, in ascending order. -/
inductive LogLevel where
  | debug
  | info
  | warning
  | error
  | critical
  deriving DecidableEq, Repr

namespace LogLevel

def name : LogLevel → String
  | .debug => "debug"
  | .info => "info"
  | .warning => "warning"
  | .error => "error"
  | .critical => "critical"

def rank : LogLevel → Nat
  | .debug => 10
  | .info => 20
  | .warning => 30
  | .error => 40
  | .critical => 50

end LogLevel

/-- The components that log. -/
inductive LogSource where
  | parser
  | frontMatter
  | references
  | content
  | collector
  | patching
  | rendering
  | pipeline
  | service
  | logging
  deriving DecidableEq, Repr

/-- The name under which a component logs. -/
def LogSource.name : LogSource → String
  | .parser => "mdx_l10n.parsing.parser"
  | .frontMatter => "mdx_l10n.extraction.frontmatter"
  | .references => "mdx_l10n.extraction.references"
  | .content => "mdx_l10n.extraction.content"
  | .collector => "mdx_l10n.collector"
  | .patching => "mdx_l10n.patching"
  | .rendering => "mdx_l10n.rendering"
  | .pipeline => "mdx_l10n.pipeline"
  | .service => "mdx_l10n.smartling"
  | .logging => "mdx_l10n.logging_config"

/-- A log event. -/
structure LogEvent where
  level : LogLevel
  source : LogSource
  message : Text
  fields : List (String × Json) := []
  deriving Repr

namespace LogEvent

def isProblem (e : LogEvent) : Bool := LogLevel.warning.rank ≤ e.level.rank

/-- The written form of an event without its component. -/
def toJson (e : LogEvent) : Json :=
  .record ([("level", .ofString e.level.name), ("event", .text e.message)] ++ e.fields)

/-- The written form of an event with its component. -/
def toJsonWithSource (e : LogEvent) : Json :=
  .record ([("level", .ofString e.level.name), ("event", .text e.message),
    ("logger", .ofString e.source.name)] ++ e.fields)

end LogEvent

end MdxLocalization
