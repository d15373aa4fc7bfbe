import ProductCatalog.Consumer.Turn

/-!
# Runs of a consumer

A run goes on by itself from turn to turn, and when nobody can go on, to the
instant of the next alarm. From outside it can be started and asked to stop,
messages can be sent to its queue, and the queue can be told to fail; what is
done from outside shows in the turns that follow.

A receive that may wait and leases that last make every instant come to an
end. A run whose receives return at once, or whose leases expire at once,
never gives way; `advance` cuts it off.

## Main definitions

* `Consumer.step?` — the next turn, or the next instant.
* `Consumer.start`, `stop`, `send`, `publish` — what can be done from outside.
* `Consumer.advance`, `finish` — time passes; the run is led to its end.
-/

namespace ProductCatalog.Consumer

/-! ## Turns and alarms -/

/-- The loop's alarm: when it rings, its place among all alarms, and whose it is. -/
def loopAlarm (c : Consumer) : List (Nat × Nat × Party) :=
  match c.phase with
  | .receiving poll => [(poll.lookAt, c.alarm, .loop)]
  | .pausing wakeAt => [(wakeAt, c.alarm, .loop)]
  | _ => []

/-- All alarms. -/
def pending (c : Consumer) : List (Nat × Nat × Party) :=
  c.loopAlarm ++ c.tasks.filterMap fun task =>
    task.wakeAt?.map fun wakeAt => (wakeAt, task.alarm, .task task.delivery.number)

/-- The instant of the next alarm. -/
def nextAlarm (c : Consumer) : Option Nat := (c.pending.map (·.1)).min?

/-- Comes to an instant. Parties whose alarms ring get turns after those already given. -/
def ring (c : Consumer) (instant : Nat) : Consumer :=
  let due := (c.pending.filter (·.1 ≤ instant)).mergeSort fun a b => a.2.1 ≤ b.2.1
  { c with
    now := max c.now instant
    turns := c.turns ++ (due.map (·.2.2)).filter fun party => !c.turns.contains party }

/-- Lets a party take its turn. -/
def turnOf (c : Consumer) : Party → Consumer
  | .loop => c.loopTurn
  | .task delivery => c.taskTurn delivery

/-- The next turn, or the next instant before `limit`. Nothing, if neither is left. -/
def step? (limit : Nat) (c : Consumer) : Option Consumer :=
  match c.turns with
  | party :: turns => some ({ c with turns }.turnOf party)
  | [] =>
    match c.nextAlarm with
    | some instant => if instant < limit then some (c.ring instant) else none
    | none => none

/-- At most `fuel` steps. -/
def steps (limit : Nat) : (fuel : Nat) → Consumer → Consumer
  | 0, c => c
  | fuel + 1, c =>
    match c.step? limit with
    | some c => steps limit fuel c
    | none => c

/-- More steps than a run takes in a span of time that gives way at every instant. -/
def stepBound (c : Consumer) (span : Nat) : Nat :=
  (span + 2) * (4 * (c.queue.size + c.tasks.length + c.queue.faults.receives + 4))

/-! ## From outside -/

/-- Starts the run. -/
def start (c : Consumer) : Consumer :=
  if c.phase = .idle then { c with phase := .starting }.wakeLoop else c

/-- Wakes a loop that waits in a receive or pauses. -/
def rouse (c : Consumer) : Consumer :=
  match c.phase with
  | .receiving _ | .pausing _ => c.wakeLoop
  | _ => c

/-- Asks the run to stop. That nobody is left who could ask has the same effect. -/
def stop (c : Consumer) : Consumer := { c with stopAsked := true }.rouse

/-- Tells the loop about a message if it waits in a receive. -/
def announce (c : Consumer) : Consumer :=
  match c.phase with
  | .receiving _ => c.wakeLoop
  | _ => c

/-- Sends a message to the queue. -/
def send (c : Consumer) (body : Text.Bytes) : Consumer × Except TransportError Unit :=
  match c.queue.send body with
  | (queue, .ok ()) => ({ c with queue }.announce, .ok ())
  | (queue, .error error) => ({ c with queue }, .error error)

/-- Publishes an event to the queue. -/
def publish (c : Consumer) (event : LifecycleEvent) : Consumer × Except TransportError Unit :=
  match c.send event.encode with
  | (c, .ok ()) => (c.note (.published event), .ok ())
  | (c, .error error) => (c, .error error)

/-- Makes the next `n` receives fail. -/
def failReceives (c : Consumer) (n : Nat) : Consumer :=
  { c with queue := { c.queue with faults := { c.queue.faults with receives := n } } }

/-- Makes the next `n` deletions fail. -/
def failDeletes (c : Consumer) (n : Nat) : Consumer :=
  { c with queue := { c.queue with faults := { c.queue.faults with deletes := n } } }

/-! ## Time -/

/-- Lets a span of time pass. What is due at its end gets its turns only after what is done from
outside at that instant. -/
def advance (c : Consumer) (span : Nat) : Consumer :=
  if span = 0 then c else (steps (c.now + span) (c.stepBound span) c).ring (c.now + span)

/-- The longest that a run can take to end once it has been asked to stop. -/
def drainBound (c : Consumer) : Nat := c.settings.handlerTimeout + c.settings.deleteTimeout

/-- Starts the run unless it has been, asks it to stop, and lets it come to its end. -/
def finish (c : Consumer) : Consumer :=
  let c := c.start.stop
  steps (c.now + c.drainBound + 1) (c.stepBound c.drainBound) c

end ProductCatalog.Consumer
