import ProductCatalog.Log.Basic

/-!
# Signals

A log entry is told at some place of the program and perhaps during some
stretch of work. The place is known by its *target*, the path of a module;
the stretch of work, a *span*, has a name, a target and a level of its own
and fields that hold for all that is told in it. An entry together with
these is a *signal*. Its message is one of its fields; a signal about a
failure has the field `error` and no message.

## Main definitions

* `Span`, `Signal` — what is told and where.
* `LogEntry.signal` — the signal that tells an entry.
-/

namespace ProductCatalog

/-- A stretch of work that signals belong to. -/
structure Span where
  name : String
  target : String
  fields : List (String × String) := []
  level : LogLevel := .info
deriving Repr, DecidableEq

/-- What is told, with its place. -/
structure Signal where
  target : String
  level : LogLevel
  fields : List (String × String) := []
  /-- The innermost stretch of work around the place, if there is any. -/
  span : Option Span := none
deriving Repr, DecidableEq

/-- The name of the field that holds a message. -/
def messageField : String := "message"

/-- The signal that tells a log entry. -/
def LogEntry.signal (entry : LogEntry) (target : String) (span : Option Span) : Signal :=
  ⟨target, entry.level, (messageField, entry.message) :: entry.fields, span⟩

/-- The signal about a failure. -/
def Signal.failure (reason target : String) (span : Option Span) : Signal :=
  ⟨target, .error, [("error", reason)], span⟩

end ProductCatalog
