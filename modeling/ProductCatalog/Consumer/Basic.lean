import ProductCatalog.Consumer.Handler
import ProductCatalog.Queue.Exchange

/-!
# A consumer of a queue

A consumer takes messages from a queue and processes them. Its *loop*
receives, and gives every delivery to a *task* of its own; it goes straight
back to receiving, and only when it has been asked to stop does it wait for
the tasks that are still running. A task decodes its message, calls the
handler of the event's kind and deletes the message, unless the handler has
failed or has taken too long. The call of the handler and the deletion each
have a deadline.

All of it runs on one thread. Loop and tasks are *parties* that take turns,
and a turn lasts until the party has to wait. A party that waits for a time
sets an *alarm*; alarms are counted, and those that ring at one instant
give out turns in the order in which they were set.

## Main definitions

* `Consumer.Settings`, `Consumer.Report` — what governs a run and what it
  comes to.
* `Consumer.Incident` — what can happen in a run; `Incident.entry?` — what the
  log says about it.
* `Consumer` — the state of a run, with its queue, its clock and its history.
-/

namespace ProductCatalog

namespace Consumer

/-- What governs a run. All times are milliseconds. -/
structure Settings where
  /-- The most messages that a receive may bring. -/
  maxMessages : Nat := 10
  /-- How long a receive waits for a message. -/
  waitTime : Nat := 20000
  /-- The pause after a failed receive. -/
  retryDelay : Nat := 5000
  /-- The time that the handler of a message has. -/
  handlerTimeout : Nat := 30000
  /-- The time that the deletion of a message has. -/
  deleteTimeout : Nat := 10000
deriving Repr, DecidableEq

/-- How the task of a delivery ends. -/
inductive Ending
  /-- The message has been handled. -/
  | completed
  /-- No handler can ever handle the message. -/
  | discarded
  /-- The handler has failed or was too slow. -/
  | redelivered
  /-- The handler has panicked. -/
  | crashed
deriving Repr, DecidableEq, Inhabited

/-- How many tasks have ended in each way. -/
structure Report where
  completed : Nat := 0
  discarded : Nat := 0
  redelivered : Nat := 0
  crashed : Nat := 0
deriving Repr, DecidableEq

/-- Counts one more end of a task. -/
def Report.count (r : Report) : Ending → Report
  | .completed => { r with completed := r.completed + 1 }
  | .discarded => { r with discarded := r.discarded + 1 }
  | .redelivered => { r with redelivered := r.redelivered + 1 }
  | .crashed => { r with crashed := r.crashed + 1 }

/-- The number of tasks counted. -/
def Report.total (r : Report) : Nat := r.completed + r.discarded + r.redelivered + r.crashed

/-- Counting raises the total by one, however the task has ended. -/
theorem Report.total_count (r : Report) (ending : Ending) :
    (r.count ending).total = r.total + 1 := by
  cases ending <;> simp only [count, total] <;> omega

/-- Something that happens in a run or to its queue. -/
inductive Incident
  /-- An event has been published to the queue. -/
  | published (event : LifecycleEvent)
  /-- The loop begins. -/
  | began
  /-- The loop begins a receive. -/
  | receiveBegan
  /-- A receive ends with a batch, which may be empty. -/
  | received (batch : List Queue.Delivery)
  /-- A receive fails. -/
  | receiveFailed (error : TransportError)
  /-- The body of a message is no event. -/
  | undecodable (delivery : Queue.Delivery) (error : DecodeError)
  /-- No handler is registered for an event. -/
  | unhandled (delivery : Queue.Delivery) (event : LifecycleEvent)
  /-- A handler is called. -/
  | handlerCalled (delivery : Queue.Delivery) (event : LifecycleEvent)
  /-- A handler tells something to the log. -/
  | told (entry : LogEntry)
  /-- A handler's call ends. -/
  | handlerEnded (delivery : Queue.Delivery) (event : LifecycleEvent) (outcome : Outcome)
  /-- A handler's call is given up at its deadline. -/
  | handlerTimedOut (delivery : Queue.Delivery) (event : LifecycleEvent)
  /-- The deletion of a message begins. -/
  | deleteCalled (delivery : Queue.Delivery)
  /-- The deletion of a message succeeds. -/
  | deleted (delivery : Queue.Delivery)
  /-- The deletion of a message fails. -/
  | deleteFailed (delivery : Queue.Delivery) (error : TransportError)
  /-- The deletion of a message is given up at its deadline. -/
  | deleteTimedOut (delivery : Queue.Delivery)
  /-- The loop counts the end of a task. -/
  | counted (delivery : Queue.Delivery) (ending : Ending)
  /-- The loop stops receiving while some tasks have not been counted. -/
  | draining (uncounted : Nat)
  /-- The run ends. -/
  | stopped (report : Report)

/-- What the log says about an incident, if anything. -/
def Incident.entry? (s : Settings) : Incident → Option LogEntry
  | published event => some event.publishedEntry
  | began => some ⟨.info, "queue consumer started",
      [("max_messages", LogEntry.number s.maxMessages),
        ("wait_time_ms", LogEntry.number s.waitTime)]⟩
  | received batch =>
    if batch.isEmpty then none
    else some ⟨.debug, "received message batch", [("count", LogEntry.number batch.length)]⟩
  | receiveFailed error => some ⟨.error, "failed to receive messages",
      [("error", error.message), ("retry_delay_ms", LogEntry.number s.retryDelay)]⟩
  | undecodable delivery error => some ⟨.warn, "discarding undecodable message",
      [("ack_token", delivery.token), ("error", error.message delivery.message.body)]⟩
  | unhandled _ event =>
    some ⟨.warn, "no handler registered; discarding message", event.fields⟩
  | told entry => some entry
  | handlerEnded _ event (.failed reason) =>
    some ⟨.error, "handler failed; message left for redelivery",
      ("error", reason) :: event.fields⟩
  | handlerTimedOut _ event => some ⟨.error, "handler timed out; message left for redelivery",
      ("timeout_ms", LogEntry.number s.handlerTimeout) :: event.fields⟩
  | deleteFailed delivery error => some ⟨.error, "failed to acknowledge message",
      [("ack_token", delivery.token), ("error", error.message)]⟩
  | deleteTimedOut delivery => some ⟨.error, "acknowledgment timed out",
      [("ack_token", delivery.token), ("timeout_ms", LogEntry.number s.deleteTimeout)]⟩
  | counted _ .crashed =>
    some ⟨.error, "message task crashed; message left for redelivery", []⟩
  | draining uncounted => some ⟨.info, "queue consumer draining",
      [("in_flight", LogEntry.number uncounted)]⟩
  | stopped report => some ⟨.info, "queue consumer stopped",
      [("completed", LogEntry.number report.completed),
        ("discarded", LogEntry.number report.discarded),
        ("redelivered", LogEntry.number report.redelivered),
        ("crashed", LogEntry.number report.crashed)]⟩
  | receiveBegan | handlerCalled .. | handlerEnded .. | deleteCalled _ | deleted _ | counted .. =>
    none

/-- How far a task has come. -/
inductive TaskState
  /-- It has not had its first turn. -/
  | ready
  /-- It waits for its handler, until the handler ends or is out of time. -/
  | handling (event : LifecycleEvent) (outcome : Option Outcome) (wakeAt : Nat)
  /-- It waits for the deletion of its message, which is carried out in time or not. -/
  | deleting (ending : Ending) (inTime : Bool) (wakeAt : Nat)
deriving DecidableEq

/-- The task of a delivery. -/
structure Task where
  delivery : Queue.Delivery
  state : TaskState := .ready
  /-- The place of its latest alarm among all alarms. -/
  alarm : Nat := 0
deriving DecidableEq

/-- The instant at which a waiting task goes on. -/
def Task.wakeAt? (t : Task) : Option Nat :=
  match t.state with
  | .ready => none
  | .handling _ _ wakeAt | .deleting _ _ wakeAt => some wakeAt

/-- How far the loop has come. -/
inductive Phase
  /-- There is no run yet. -/
  | idle
  /-- The run has been started and has had no turn. -/
  | starting
  /-- It is about to receive. -/
  | polling
  /-- It waits in a receive. -/
  | receiving (poll : Queue.Poll)
  /-- It pauses after a failed receive. -/
  | pausing (wakeAt : Nat)
  /-- It waits for the tasks. -/
  | draining
  /-- The run is over. -/
  | stopped
deriving Repr, DecidableEq

/-- Whoever may take a turn. -/
inductive Party
  | loop
  /-- The task of the delivery with a number. -/
  | task (delivery : Nat)
deriving Repr, DecidableEq

end Consumer

open Consumer in
/-- A consumer with its queue. -/
structure Consumer where
  settings : Settings := {}
  handlers : Registry Handler := {}
  /-- What the handlers share. -/
  service : NotificationService := {}
  /-- How long the queue takes before it carries out its `n`-th deletion, counted from zero. -/
  deleteDelay : (n : Nat) → Nat := fun _ => 0
  queue : Queue
  now : Nat := 0
  /-- The run has been asked to stop, or nobody is left who could ask. -/
  stopAsked : Bool := false
  phase : Phase := .idle
  /-- The place of the loop's latest alarm among all alarms. -/
  alarm : Nat := 0
  /-- Running tasks, the oldest first. -/
  tasks : List Task := []
  /-- Tasks that have ended and have not been counted, in the order of their ends. -/
  ended : List (Queue.Delivery × Ending) := []
  report : Report := {}
  /-- Number of calls so far of the handler of each kind. -/
  calls : EventKind → Nat := fun _ => 0
  /-- Number of deletions begun so far. -/
  deletions : Nat := 0
  /-- Number of alarms set so far. -/
  alarms : Nat := 0
  /-- The parties that can go on now, in the order of their turns. -/
  turns : List Party := []
  /-- All that has happened, with its time. -/
  history : List (Nat × Incident) := []

namespace Consumer

/-- Notes an incident. -/
def note (c : Consumer) (incident : Incident) : Consumer :=
  { c with history := c.history ++ [(c.now, incident)] }

/-- What the log says about the history. -/
def log (c : Consumer) : List LogEntry :=
  c.history.filterMap fun (_, incident) => incident.entry? c.settings

/-- The calls of handlers, in order. -/
def handlerCalls (c : Consumer) : List LifecycleEvent :=
  c.history.filterMap fun
    | (_, .handlerCalled _ event) => some event
    | _ => none

/-- The calls of handlers that have ended, in the order of their ends. -/
def handlerEnds (c : Consumer) : List (LifecycleEvent × Outcome) :=
  c.history.filterMap fun
    | (_, .handlerEnded _ event outcome) => some (event, outcome)
    | _ => none

/-- Whether a run has been started and is not over. -/
def isRunning (c : Consumer) : Bool := c.phase != .idle && c.phase != .stopped

end Consumer

end ProductCatalog
