import ProductCatalog.Text.Digits

/-!
# Log entries

What the services do is told in log entries: a level, a fixed message and
named fields, all of whose values are text.
-/

namespace ProductCatalog

/-- How important a log entry is, the most important last. -/
inductive LogLevel
  | trace
  | debug
  | info
  | warn
  | error
deriving Repr, DecidableEq, Inhabited

/-- The name of a level. -/
def LogLevel.name : LogLevel → String
  | trace => "TRACE"
  | debug => "DEBUG"
  | info => "INFO"
  | warn => "WARN"
  | error => "ERROR"

/-- One log entry. -/
structure LogEntry where
  level : LogLevel
  message : String
  fields : List (String × String) := []
deriving Repr, DecidableEq, Inhabited

/-- A number as the value of a field. -/
def LogEntry.number (n : Nat) : String := String.ofList (Text.Digits.ofNat n)

end ProductCatalog
