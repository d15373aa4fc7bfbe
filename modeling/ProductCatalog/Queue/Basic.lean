import ProductCatalog.Event.Envelope

/-!
# A message queue with leases

Messages wait in line. A receive hands out the first of them under leases:
while a lease runs nobody else gets its message, and whoever holds the
lease's token may delete the message. A lease that has run out is given
back to the end of the line, but only when the next receive looks; until
then its token still deletes.

A token is the number of its message and the number of its delivery, both
counted from one over the life of the queue, so no token is given twice.

The queue can be told to let its next sends, receives or deletes fail. A
failing operation changes nothing else.

## Main definitions

* `Queue` — messages in line, leases, and what was sent and deleted.
* `Queue.send`, `Queue.look`, `Queue.delete` — the operations.
* `TransportError` — why one fails.
-/

namespace ProductCatalog

open Text

/-- Why a queue operation fails. -/
inductive TransportError
  | send (reason : String)
  | receive (reason : String)
  | delete (reason : String)
deriving Repr, DecidableEq

/-- The text of a failed queue operation. -/
def TransportError.message : TransportError → String
  | send reason => "failed to send message: " ++ reason
  | receive reason => "failed to receive messages: " ++ reason
  | delete reason => "failed to delete message: " ++ reason

/-- The text of a failed send as the failure of a publication. -/
def TransportError.publishMessage (e : TransportError) : String :=
  "failed to send message to queue: " ++ e.message

namespace Queue

/-- A message and its place in the order of sends, counted from one. -/
structure Message where
  number : Nat
  body : Bytes
deriving Repr, DecidableEq

/-- The token of a delivery. -/
def token (message delivery : Nat) : String :=
  String.ofList (Digits.ofNat message ++ '-' :: Digits.ofNat delivery)

/-- A message handed out. -/
structure Delivery where
  message : Message
  /-- The place in the order of deliveries, counted from one. -/
  number : Nat
deriving Repr, DecidableEq

/-- The token that deletes the message while the delivery is the latest one. -/
def Delivery.token (d : Delivery) : String := Queue.token d.message.number d.number

/-- A delivery and the time from which its message may go back to the line. -/
structure Lease where
  delivery : Delivery
  visibleAt : Nat
deriving Repr, DecidableEq

/-- How many of the next operations shall fail. -/
structure Faults where
  sends : Nat := 0
  receives : Nat := 0
  deletes : Nat := 0
deriving Repr, DecidableEq

end Queue

open Queue in
/-- A queue. Times are milliseconds. -/
structure Queue where
  /-- How long a lease runs. -/
  visibility : Nat
  /-- Messages in line, the next one first. -/
  visible : List Message := []
  /-- Running and expired leases, in the order of their deliveries. -/
  leased : List Lease := []
  /-- All messages ever sent, in order. -/
  sent : List Message := []
  /-- All messages ever deleted, in order. -/
  deleted : List Message := []
  /-- Number of deliveries so far. -/
  deliveries : Nat := 0
  /-- Number of receives begun so far. -/
  receives : Nat := 0
  faults : Faults := {}
deriving Repr, DecidableEq

namespace Queue

/-- The usual running time of a lease. -/
def defaultVisibility : Nat := 30000

/-- Number of messages in line or leased. -/
def size (q : Queue) : Nat := q.visible.length + q.leased.length

/-- Puts a message at the end of the line. -/
def push (q : Queue) (body : Bytes) : Queue :=
  let message : Message := ⟨q.sent.length + 1, body⟩
  { q with sent := q.sent ++ [message], visible := q.visible ++ [message] }

/-- Sends a message. -/
def send (q : Queue) (body : Bytes) : Queue × Except TransportError Unit :=
  match q.faults.sends with
  | n + 1 =>
    ({ q with faults := { q.faults with sends := n } },
      .error (.send "injected send failure"))
  | 0 => (q.push body, .ok ())

/-- Whether a lease has run out. -/
def Lease.expired (now : Nat) (lease : Lease) : Bool := lease.visibleAt ≤ now

/-- Gives the messages of expired leases back to the end of the line. -/
def reclaim (q : Queue) (now : Nat) : Queue :=
  { q with
    visible := q.visible ++ (q.leased.filter (Lease.expired now)).map (·.delivery.message)
    leased := q.leased.filter fun lease => !lease.expired now }

/-- The deliveries of some messages, numbered after `n`. -/
def numbered : (n : Nat) → List Message → List Delivery
  | _, [] => []
  | n, message :: rest => ⟨message, n + 1⟩ :: numbered (n + 1) rest

/-- Leases the first messages in line, at most `max` of them. -/
def lease (q : Queue) (now max : Nat) : Queue × List Delivery :=
  let batch := numbered q.deliveries (q.visible.take max)
  ({ q with
      visible := q.visible.drop max
      leased := q.leased ++ batch.map fun d => ⟨d, now + q.visibility⟩
      deliveries := q.deliveries + batch.length },
    batch)

/-- One look of a receive: reclaims what has expired and leases what is in line. -/
def look (q : Queue) (now max : Nat) : Queue × List Delivery :=
  (q.reclaim now).lease now max

/-- Begins a receive, which may be one that shall fail. -/
def beginReceive (q : Queue) : Queue × Except TransportError Unit :=
  let q := { q with receives := q.receives + 1 }
  match q.faults.receives with
  | n + 1 =>
    ({ q with faults := { q.faults with receives := n } },
      .error (.receive "injected receive failure"))
  | 0 => (q, .ok ())

/-- The lease that a token belongs to. -/
def leaseOf? (q : Queue) (token : String) : Option Lease :=
  q.leased.find? fun lease => lease.delivery.token = token

/-- Deletes the message that a token belongs to. -/
def delete (q : Queue) (token : String) : Queue × Except TransportError Unit :=
  match q.faults.deletes with
  | n + 1 =>
    ({ q with faults := { q.faults with deletes := n } },
      .error (.delete "injected delete failure"))
  | 0 =>
    match q.leaseOf? token with
    | some lease =>
      ({ q with
          leased := q.leased.filter fun other => other.delivery.token != token
          deleted := q.deleted ++ [lease.delivery.message] },
        .ok ())
    | none => (q, .error (.delete ("receipt handle " ++ token ++ " is not valid")))

/-- The events among the messages sent, in order. -/
def sentEvents (q : Queue) : List LifecycleEvent :=
  q.sent.filterMap fun message => (decode message.body).toOption

/-! ## The operations on the parts -/

theorem numbered_length (n : Nat) (ms : List Message) : (numbered n ms).length = ms.length := by
  induction ms generalizing n with
  | nil => rfl
  | cons m ms ih => simp [numbered, ih]

/-- Numbering keeps the messages and their order. -/
theorem map_message_numbered (n : Nat) (ms : List Message) :
    (numbered n ms).map Delivery.message = ms := by
  induction ms generalizing n with
  | nil => rfl
  | cons m ms ih => simp [numbered, ih]

/-- A look never hands out more than was asked for. -/
theorem length_look_le (q : Queue) (now max : Nat) : (q.look now max).2.length ≤ max := by
  simp only [look, lease, numbered_length, List.length_take]
  exact Nat.min_le_left ..

end Queue

end ProductCatalog
