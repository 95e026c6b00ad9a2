/-! Log lines, how grave they are, and filters that let the grave ones pass. -/

namespace TaskPool

/-- How grave a line is, from the gravest down. -/
inductive Severity where
  | error
  | warn
  | info
  | debug
  | trace
deriving DecidableEq, Repr

namespace Severity

/-- The place of a severity, where the gravest has the lowest. -/
def rank : Severity → Nat
  | .error => 1
  | .warn => 2
  | .info => 3
  | .debug => 4
  | .trace => 5

/-- The name of a severity in a line. -/
def label : Severity → String
  | .error => "ERROR"
  | .warn => "WARN"
  | .info => "INFO"
  | .debug => "DEBUG"
  | .trace => "TRACE"

/-- All severities, from the gravest down. -/
def all : List Severity := [.error, .warn, .info, .debug, .trace]

/-- The severity with a name. -/
def ofLabel? (label : String) : Option Severity := all.find? fun severity => severity.label = label

end Severity

/-- What passes: nothing, or everything that is at least as grave as a severity. -/
inductive Filter where
  | off
  | upTo (severity : Severity)
deriving DecidableEq, Repr

namespace Filter

/-- The place of the least grave severity that passes. -/
def rank : Filter → Nat
  | .off => 0
  | .upTo severity => severity.rank

/-- Whether a severity passes. -/
def admits (filter : Filter) (severity : Severity) : Bool := severity.rank ≤ filter.rank

/-- The name of a filter. -/
def label : Filter → String
  | .off => "OFF"
  | .upTo severity => severity.label

/-- The filter with a name. -/
def ofLabel? (label : String) : Option Filter :=
  if label = "OFF" then some .off else (Severity.ofLabel? label).map .upTo

/-- The name of a filter in an outline. -/
def outlineLabel : Filter → String
  | .off => "Off"
  | .upTo .error => "Error"
  | .upTo .warn => "Warn"
  | .upTo .info => "Info"
  | .upTo .debug => "Debug"
  | .upTo .trace => "Trace"

end Filter

/-- A line that somebody wants to be logged. -/
structure Line where
  severity : Severity
  text : String
deriving DecidableEq, Repr

namespace Line

/--
Whether one line comes before another when lines are ordered by gravity, and then by their text.
-/
def sortsBefore (a b : Line) : Bool :=
  a.severity.rank < b.severity.rank || (a.severity = b.severity && a.text ≤ b.text)

end Line

end TaskPool
