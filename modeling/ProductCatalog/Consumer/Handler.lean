import ProductCatalog.Event.Report

/-!
# Handlers and their register

A handler reacts to an event: after some time it has succeeded, failed with
a reason, or panicked. What it does may depend on the event and on how often
it has been called before. As soon as it is called it may tell the log about
an event, and have the notification service, which handlers share, count it.

A register holds at most one handler for each kind of event. Registering a
second one for a kind replaces the first and leaves a warning.

## Main definitions

* `Reaction`, `Handler` — what a handler does with its calls.
* `NotificationService` — what handlers share.
* `Registry` — at most one thing for each kind; `Registry.register`.
-/

namespace ProductCatalog

/-- How a call of a handler ends. -/
inductive Outcome
  | ok
  | failed (reason : String)
  | panicked
deriving Repr, DecidableEq, Inhabited

/-- The word for an outcome. -/
def Outcome.word : Outcome → String
  | ok => "ok"
  | failed _ => "fail"
  | panicked => "panic"

/-- What a handler does with one call. -/
structure Reaction where
  /-- The milliseconds that it takes. -/
  delay : Nat := 0
  outcome : Outcome := .ok
deriving Repr, DecidableEq, Inhabited

/-- The reaction of a script to its `n`-th call, counted from zero. The last reaction repeats,
and a script without reactions succeeds at once. -/
def Reaction.ofScript : List Reaction → Nat → Reaction
  | [], _ => {}
  | [last], _ => last
  | first :: _ :: _, 0 => first
  | _ :: rest, n + 1 => ofScript rest n

/-- The notification service: how often each of its methods has been called. -/
structure NotificationService where
  created : Nat := 0
  deleted : Nat := 0
deriving Repr, DecidableEq

/-- A handler of events. -/
structure Handler where
  /-- What it does with its `n`-th call, counted from zero. -/
  reaction : (n : Nat) → LifecycleEvent → Reaction := fun _ _ => {}
  /-- What it tells the log when it is called. -/
  report : LifecycleEvent → List LogEntry := fun _ => []
  /-- What it does to the service when it is called. -/
  effect : LifecycleEvent → NotificationService → NotificationService := fun _ service => service

/-- The handler that follows a script. -/
def Handler.ofScript (script : List Reaction) : Handler where
  reaction n _ := Reaction.ofScript script n

/-- At most one thing for each kind of event. -/
structure Registry (α : Type) where
  created : Option α := none
  deleted : Option α := none
deriving Repr, DecidableEq

namespace Registry

variable {α : Type}

/-- The thing registered for a kind. -/
def get (r : Registry α) : EventKind → Option α
  | .created => r.created
  | .deleted => r.deleted

/-- Puts a thing in the place of a kind. -/
def set (r : Registry α) (kind : EventKind) (a : α) : Registry α :=
  match kind with
  | .created => { r with created := some a }
  | .deleted => { r with deleted := some a }

/-- Where registrations are told from. -/
def target : String := "catalog_events::handler"

/-- Registers a thing for a kind, with a warning if another one gives way to it. -/
def register (r : Registry α) (kind : EventKind) (a : α) : Registry α × List LogEntry :=
  (r.set kind a,
    if (r.get kind).isSome then
      [⟨.warn, "handler registered twice; keeping the last one",
        [("event_type", kind.wireName)]⟩]
    else [])

/-- Registers things one after another, with all the warnings. -/
def registerAll (r : Registry α) : List (EventKind × α) → Registry α × List LogEntry
  | [] => (r, [])
  | (kind, a) :: rest =>
    let (r, warnings) := r.register kind a
    let (r, more) := r.registerAll rest
    (r, warnings ++ more)

/-- The kinds that something is registered for, in their fixed order. -/
def kinds (r : Registry α) : List EventKind := EventKind.all.filter fun kind => (r.get kind).isSome

/-- The text of a register in diagnostics. -/
def debugText (r : Registry α) : String :=
  "HandlerRegistry \x7b registered: [" ++ ", ".intercalate (r.kinds.map EventKind.label) ++ "] \x7d"

/-- The things that events reach, one after another, each with the number of its calls before. -/
def reachedBy (r : Registry α) (events : List LifecycleEvent) :
    List (LifecycleEvent × Option (α × Nat)) :=
  events.mapIdx fun n event =>
    (event, (r.get event.kind).map (·, (events.take n).countP (·.kind = event.kind)))

end Registry

end ProductCatalog
