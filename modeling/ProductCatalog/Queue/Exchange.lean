import ProductCatalog.Queue.Basic

/-!
# Receives that wait

A receive that finds nothing waits. It looks again when a send wakes it and
otherwise every ten milliseconds, until it finds something or its deadline
has passed. Every send wakes the receive that has waited longest without
having been woken.

An *exchange* is a queue on a clock together with the receives waiting at
it. All of it happens on one thread, which belongs to whoever works with the
exchange from outside and is lent to the waiting receives only while time
passes. So what is due at an instant waits in line, in the order in which it
became due, until the instant is left; and a receive that is made from
outside, and waited for, looks before all others.

## Main definitions

* `Queue.Poll` — a waiting receive; `Queue.poll` — a look of one.
* `Exchange.send`, `startReceive`, `receive` — what can be done at an exchange.
* `Exchange.advance`, `finish` — time passes.
-/

namespace ProductCatalog

open Text

namespace Queue

/-- The time between two looks of a waiting receive. -/
def pollTick : Nat := 10

/-- A waiting receive. -/
structure Poll where
  max : Nat
  deadline : Nat
  /-- When it looks next, if nothing wakes it before. -/
  lookAt : Nat
deriving Repr, DecidableEq

/-- What becomes of a receive at a look. -/
inductive PollState
  | finished (result : Except TransportError (List Delivery))
  | waiting (poll : Poll)

/--
A look of a receive. It ends with what it finds, or empty-handed at its
deadline, and waits otherwise.
-/
def poll (q : Queue) (now max deadline : Nat) : Queue × PollState :=
  let (q, batch) := q.look now max
  if !batch.isEmpty || deadline ≤ now then (q, .finished (.ok batch))
  else (q, .waiting ⟨max, deadline, now + min pollTick (deadline - now)⟩)

/-- The start of a receive that may wait for `wait` milliseconds. -/
def receive (q : Queue) (now max wait : Nat) : Queue × PollState :=
  match q.beginReceive with
  | (q, .error e) => (q, .finished (.error e))
  | (q, .ok ()) => q.poll now max (now + wait)

end Queue

/-- A receive waiting at an exchange. -/
structure Waiter where
  /-- The name under which its result will be found. -/
  name : Nat
  poll : Queue.Poll
  /-- A send has woken it, and it has not looked since. -/
  woken : Bool := false
deriving Repr, DecidableEq

/-- A queue on a clock, with the receives waiting at it. -/
structure Exchange where
  queue : Queue
  now : Nat := 0
  /-- Waiting receives, the one that has waited longest since its last look first. -/
  waiters : List Waiter := []
  /-- The names of the receives that look before this instant is left, in order. -/
  turns : List Nat := []
  /-- Results of receives that have ended, by name. -/
  results : List (Nat × Except TransportError (List Queue.Delivery)) := []
  /-- Number of receives named so far. -/
  names : Nat := 0

namespace Exchange

/-- The first waiter that has not been woken. -/
def firstAsleep? (x : Exchange) : Option Waiter := x.waiters.find? fun w => !w.woken

/-- Lets receives look before this instant is left, after those that already do. -/
def line (x : Exchange) (names : List Nat) : Exchange :=
  { x with turns := x.turns ++ names.filter fun name => !x.turns.contains name }

/-- Announces a message to the waiting receives. -/
def announce (x : Exchange) : Exchange :=
  match x.firstAsleep? with
  | none => x
  | some first =>
    let waiters := x.waiters.map fun w =>
      if w.name = first.name then { w with woken := true } else w
    { x with waiters }.line [first.name]

/-- Sends a message and announces it. -/
def send (x : Exchange) (body : Bytes) : Exchange × Except TransportError Unit :=
  match x.queue.send body with
  | (q, .ok ()) => ({ x with queue := q }.announce, .ok ())
  | (q, .error e) => ({ x with queue := q }, .error e)

/-- Records what became of a receive. -/
def settle (x : Exchange) (name : Nat) : Queue × Queue.PollState → Exchange
  | (q, .finished result) => { x with queue := q, results := x.results ++ [(name, result)] }
  | (q, .waiting poll) => { x with queue := q, waiters := x.waiters ++ [⟨name, poll, false⟩] }

/-- Lets a waiting receive look. -/
def look (x : Exchange) (name : Nat) : Exchange :=
  match x.waiters.find? (·.name = name) with
  | none => x
  | some w =>
    let waiters := x.waiters.filter fun other => other.name != name
    { x with waiters }.settle name (x.queue.poll x.now w.poll.max w.poll.deadline)

/-- Lets all receives in line look. -/
def runTurns (x : Exchange) : Exchange := x.turns.foldl look { x with turns := [] }

/-- The next instant at which a waiter looks of itself. -/
def nextLook (x : Exchange) : Option Nat := (x.waiters.map (·.poll.lookAt)).min?

/-- Comes to an instant. Receives that look of themselves line up. -/
def ring (x : Exchange) (instant : Nat) : Exchange :=
  let due := x.waiters.filter fun w => w.poll.lookAt ≤ instant
  { x with now := max x.now instant }.line (due.map Waiter.name)

/-- Starts a receive in the background and returns its name. -/
def startReceive (x : Exchange) (max wait : Nat) : Exchange × Nat :=
  let x := x.runTurns
  let name := x.names
  ({ x with names := name + 1 }.settle name (x.queue.receive x.now max wait), name)

/-- Lets time pass up to an instant, in at most `fuel` steps from look to look. -/
def advanceTo : (fuel : Nat) → Nat → Exchange → Exchange
  | 0, target, x => x.ring target
  | fuel + 1, target, x =>
    let x := x.runTurns
    match x.nextLook with
    | some t => if t < target then advanceTo fuel target (x.ring t) else x.ring target
    | none => x.ring target

/-- Lets a span of time pass. -/
def advance (x : Exchange) (span : Nat) : Exchange :=
  if span = 0 then x else advanceTo (span + 1) (x.now + span) x

/-- The result of a receive that has ended. -/
def resultOf? (x : Exchange) (name : Nat) : Option (Except TransportError (List Queue.Delivery)) :=
  (x.results.find? (·.1 = name)).map (·.2)

/-- Lets time pass, in at most `fuel` steps, until a receive has ended; time stops at its end. -/
def await : (fuel : Nat) → (name : Nat) → Exchange → Exchange
  | 0, _, x => x
  | fuel + 1, name, x =>
    if (x.resultOf? name).isSome then x
    else
      let x := x.runTurns
      match if (x.resultOf? name).isSome then none else x.nextLook with
      | some t => await fuel name (x.ring t)
      | none => x

/-- The latest deadline of a waiting receive. -/
def lastDeadline (x : Exchange) : Nat :=
  (x.waiters.map (·.poll.deadline)).foldl max x.now

/-- Lets time pass until a receive in the background has ended. -/
def finish (x : Exchange) (name : Nat) : Exchange :=
  await (x.lastDeadline - x.now + 2) name x

/-- Goes on with a receive in the foreground, in at most `fuel` looks. -/
def follow : (fuel : Nat) → Exchange → Queue × Queue.PollState →
    Exchange × Except TransportError (List Queue.Delivery)
  | _, x, (q, .finished result) => ({ x with queue := q }, result)
  | 0, x, (q, .waiting _) => ({ x with queue := q }, .ok [])
  | fuel + 1, x, (q, .waiting poll) =>
    let x := advanceTo (poll.lookAt - x.now + 1) poll.lookAt { x with queue := q }
    follow fuel x (x.queue.poll x.now poll.max poll.deadline)

/-- Makes a receive in the foreground. Time passes until it has ended. -/
def receive (x : Exchange) (max wait : Nat) :
    Exchange × Except TransportError (List Queue.Delivery) :=
  follow (wait + 1) x (x.queue.receive x.now max wait)

end Exchange

end ProductCatalog
