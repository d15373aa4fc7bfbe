import ProductCatalog.Consumer.Basic

/-!
# The turns of a consumer's parties

A turn takes a party from where it waited to where it waits next. The loop
gives its turns up only where it has to wait: a batch is dispatched and the
next receive begun before any task of the batch has its first turn.

## Main definitions

* `Consumer.loopTurn` — a turn of the loop, or a part of one after which the
  loop goes on at once.
* `Consumer.taskTurn` — a turn of a task.
-/

namespace ProductCatalog.Consumer

/-! ## Tasks -/

/-- Lets a task wait in a state. -/
def park (c : Consumer) (task : Task) (state : TaskState) : Consumer :=
  { c with
    alarms := c.alarms + 1
    tasks := c.tasks.map fun other =>
      if other.delivery.number = task.delivery.number then
        { other with state, alarm := c.alarms }
      else other }

/-- Gives the loop a turn after all turns already given, unless it has one. -/
def wakeLoop (c : Consumer) : Consumer :=
  if .loop ∈ c.turns then c else { c with turns := c.turns ++ [.loop] }

/-- Ends a task. A loop that waits for the tasks gets a turn. -/
def endTask (c : Consumer) (task : Task) (ending : Ending) : Consumer :=
  let c := { c with
    tasks := c.tasks.filter fun other => other.delivery.number != task.delivery.number
    ended := c.ended ++ [(task.delivery, ending)] }
  if c.phase = .draining then c.wakeLoop else c

/-- Carries the deletion of a task's message out, or gives it up, and ends the task. -/
def finishDelete (c : Consumer) (task : Task) (ending : Ending) (inTime : Bool) : Consumer :=
  if inTime then
    match c.queue.delete task.delivery.token with
    | (queue, .ok ()) => ({ c with queue }.note (.deleted task.delivery)).endTask task ending
    | (queue, .error error) =>
      ({ c with queue }.note (.deleteFailed task.delivery error)).endTask task ending
  else (c.note (.deleteTimedOut task.delivery)).endTask task ending

/-- Begins the deletion of a task's message. -/
def beginDelete (c : Consumer) (task : Task) (ending : Ending) : Consumer :=
  let delay := c.deleteDelay c.deletions
  let inTime := decide (delay ≤ c.settings.deleteTimeout)
  let c := { c with deletions := c.deletions + 1 }.note (.deleteCalled task.delivery)
  match min delay c.settings.deleteTimeout with
  | 0 => c.finishDelete task ending inTime
  | wait => c.park task (.deleting ending inTime (c.now + wait))

/-- Goes on with a task whose handler's call has ended. Without an outcome the call is out of
time. -/
def finishHandling (c : Consumer) (task : Task) (event : LifecycleEvent) :
    Option Outcome → Consumer
  | some .ok => (c.note (.handlerEnded task.delivery event .ok)).beginDelete task .completed
  | some (.failed reason) =>
    (c.note (.handlerEnded task.delivery event (.failed reason))).endTask task .redelivered
  | some .panicked => (c.note (.handlerEnded task.delivery event .panicked)).endTask task .crashed
  | none => (c.note (.handlerTimedOut task.delivery event)).endTask task .redelivered

/-- Calls the handler of an event. -/
def callHandler (c : Consumer) (task : Task) (event : LifecycleEvent) (handler : Handler) :
    Consumer :=
  let reaction := handler.reaction (c.calls event.kind) event
  let calls := fun kind => if kind = event.kind then c.calls kind + 1 else c.calls kind
  let service := handler.effect event c.service
  let c := { c with calls, service }.note (.handlerCalled task.delivery event)
  let c := (handler.report event).foldl (fun c entry => c.note (.told entry)) c
  let outcome :=
    if reaction.delay ≤ c.settings.handlerTimeout then some reaction.outcome else none
  match min reaction.delay c.settings.handlerTimeout with
  | 0 => c.finishHandling task event outcome
  | wait => c.park task (.handling event outcome (c.now + wait))

/-- Begins to process the message of a task. -/
def process (c : Consumer) (task : Task) : Consumer :=
  match decode task.delivery.message.body with
  | .error error => (c.note (.undecodable task.delivery error)).beginDelete task .discarded
  | .ok event =>
    match c.handlers.get event.kind with
    | none => (c.note (.unhandled task.delivery event)).beginDelete task .discarded
    | some handler => c.callHandler task event handler

/-- A turn of the task of a delivery. -/
def taskTurn (c : Consumer) (delivery : Nat) : Consumer :=
  match c.tasks.find? (·.delivery.number = delivery) with
  | none => c
  | some task =>
    match task.state with
    | .ready => c.process task
    | .handling event outcome _ => c.finishHandling task event outcome
    | .deleting ending inTime _ => c.finishDelete task ending inTime

/-! ## The loop -/

/-- Lets the loop go on before any other party. -/
def goOn (c : Consumer) (phase : Phase) : Consumer :=
  { c with phase, turns := .loop :: c.turns }

/-- Lets the loop wait for a time. -/
def await (c : Consumer) (phase : Phase) : Consumer :=
  { c with phase, alarm := c.alarms, alarms := c.alarms + 1 }

/-- Counts the tasks that have ended. -/
def countEnded (c : Consumer) : Consumer :=
  c.ended.foldl
    (fun c (delivery, ending) =>
      { c with report := c.report.count ending }.note (.counted delivery ending))
    { c with ended := [] }

/-- Stops receiving. -/
def drain (c : Consumer) : Consumer :=
  (c.note (.draining (c.tasks.length + c.ended.length))).goOn .draining

/-- Gives each delivery of a batch to a task of its own, and goes back to receiving. -/
def dispatch (c : Consumer) (batch : List Queue.Delivery) : Consumer :=
  let c := c.note (.received batch)
  { c with
    tasks := c.tasks ++ batch.map fun delivery => (⟨delivery, .ready, 0⟩ : Task)
    turns := c.turns ++ batch.map fun delivery => Party.task delivery.number
    : Consumer }.goOn .polling

/-- Goes on with a receive that has looked at the queue. -/
def settle (c : Consumer) : Queue × Queue.PollState → Consumer
  | (queue, .finished (.ok batch)) => { c with queue }.dispatch batch
  | (queue, .finished (.error error)) =>
    let c := { c with queue }.note (.receiveFailed error)
    match c.settings.retryDelay with
    | 0 => c.goOn .polling
    | wait => c.await (.pausing (c.now + wait))
  | (queue, .waiting poll) => { c with queue }.await (.receiving poll)

/-- Begins a receive. -/
def beginReceive (c : Consumer) : Consumer :=
  (c.note .receiveBegan).settle
    (c.queue.receive c.now c.settings.maxMessages c.settings.waitTime)

/-- A turn of the loop, up to where it waits or could be cut without anybody noticing. Being
asked to stop goes before all else, except that the tasks that have ended are counted before a
receive. -/
def loopTurn (c : Consumer) : Consumer :=
  match c.phase with
  | .idle | .stopped => c
  | .starting => (c.note .began).goOn .polling
  | .polling =>
    let c := c.countEnded
    if c.stopAsked then c.drain else c.beginReceive
  | .receiving poll =>
    if c.stopAsked then c.drain else c.settle (c.queue.poll c.now poll.max poll.deadline)
  | .pausing _ => if c.stopAsked then c.drain else c.goOn .polling
  | .draining =>
    let c := c.countEnded
    if c.tasks.isEmpty then { c with phase := .stopped }.note (.stopped c.report) else c

end ProductCatalog.Consumer
