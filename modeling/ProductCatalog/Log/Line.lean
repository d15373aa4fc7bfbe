import ProductCatalog.Json.Printer
import ProductCatalog.Log.Signal

/-!
# Log lines

A signal that is shown is a JSON object on a line of its own: its level, its
fields, and the span around it, alone and as the list of all spans around
it. Fields that hold numbers are written as numbers.

## Main definitions

* `Signal.line` — the line of a signal.
-/

namespace ProductCatalog

open Json

/-- The fields that hold numbers. -/
def numericFields : List String :=
  ["attempt", "max_retries", "max_messages", "wait_time_ms", "count", "retry_delay_ms",
    "timeout_ms", "in_flight", "completed", "discarded", "redelivered", "crashed", "grace_ms"]

/-- The JSON object of some fields. -/
def fieldsJson (fields : List (String × String)) : String :=
  writeObject (fields.map fun (name, text) =>
    (name, if numericFields.contains name then text else writeText text))

/-- The JSON object of a span. -/
def Span.json (s : Span) : String := fieldsJson (s.fields ++ [("name", s.name)])

/-- The line of a signal. -/
def Signal.line (s : Signal) : String :=
  writeObject ([("level", writeText s.level.name), ("fields", fieldsJson s.fields)] ++
    match s.span with
    | some span => [("span", span.json), ("spans", writeList [span.json])]
    | none => [])

end ProductCatalog
