import ProductCatalog.Proofs.Queue.Conservation

/-!
# The history of an exchange

An exchange goes on by *moves*: something is sent or deleted, a receive
begins, looks or is dropped, or time passes.  Which of the waiting receives
looks, and at which instant, is left open, and so is the order in which
leases are kept.  The *history* of an exchange tells what its moves have done
and when; a move that fails does nothing that it tells of.

## Main results

* `Exchange.Move.transition` — what a move can do to the queue.
* `Exchange.Runs.of_advance`, `of_finish`, `of_startReceive`, `of_receive` —
  what an exchange does by itself is a run.
* `Exchange.messages_conserved` — every message sent is in one place.
-/

namespace ProductCatalog

open Text (Bytes)
open Queue (Delivery Message Lease PollState)

/-! ## Deeds -/

namespace Exchange

/-- Something that has been done at an exchange. -/
inductive Deed
  /-- A message has been sent. -/
  | sent (body : Bytes)
  /-- A receive has looked and has taken a batch, which may be empty. -/
  | looked (batch : List Delivery)
  /-- A token has deleted its message. -/
  | deleted (token : String)

namespace Deed

/-- The body that a deed has sent. -/
def body? : Deed → Option Bytes
  | sent body => some body
  | _ => none

/-- The deliveries that a deed has made. -/
def batch : Deed → List Delivery
  | looked batch => batch
  | _ => []

end Deed

/-- Deeds with their times, in order. -/
abbrev History := List (Nat × Deed)

/-- The bodies sent, in order. -/
def sends (history : History) : List Bytes := history.filterMap fun x => x.2.body?

/-- The deliveries made, in order, with their times. -/
def deliveries (history : History) : List (Nat × Delivery) :=
  history.flatMap fun x => x.2.batch.map (Prod.mk x.1)

section Reading

variable (history more : History) (now : Nat)

@[simp] theorem sends_append : sends (history ++ more) = sends history ++ sends more :=
  List.filterMap_append

@[simp] theorem deliveries_append :
    deliveries (history ++ more) = deliveries history ++ deliveries more :=
  List.flatMap_append

@[simp] theorem deliveries_singleton (deed : Deed) :
    deliveries [(now, deed)] = deed.batch.map (Prod.mk now) :=
  List.flatMap_singleton ..

end Reading

end Exchange

/-! ## What can happen to a queue -/

namespace Queue

open Exchange (Deed)

/-- What a send does. -/
def sendDeeds (q : Queue) (body : Bytes) : List Deed :=
  match q.send body with
  | (_, .ok ()) => [.sent body]
  | (_, .error _) => []

/-- What the beginning of a receive does. -/
def receiveDeeds (q : Queue) (now max : Nat) : List Deed :=
  match q.beginReceive with
  | (q, .ok ()) => [.looked (q.look now max).2]
  | (_, .error _) => []

/-- What a deletion does. -/
def deleteDeeds (q : Queue) (token : String) : List Deed :=
  match q.delete token with
  | (_, .ok ()) => [.deleted token]
  | (_, .error _) => []

/-- What can happen to a queue at an instant, with the deeds that this is. -/
inductive Transition (q : Queue) (now : Nat) : List Deed → Queue → Prop
  /-- Nothing is done, except that leases are kept in another order. -/
  | rested {leases receives faults} (h : leases.Perm q.leased) :
      Transition q now [] { q with leased := leases, receives := receives, faults := faults }
  | sent (body : Bytes) : Transition q now [.sent body] (q.push body)
  | looked (max : Nat) {receives faults} :
      Transition q now [.looked (q.look now max).2]
        { (q.look now max).1 with receives := receives, faults := faults }
  | deleted {lease} (h : lease ∈ q.leased) :
      Transition q now [.deleted lease.delivery.token]
        { q with
          leased := q.leased.filter fun other =>
            other.delivery.token != lease.delivery.token
          deleted := q.deleted ++ [lease.delivery.message] }

namespace Transition

variable {q q' : Queue} {now : Nat} {deeds : List Deed}

/-- Nothing happens, except that faults and beginnings of receives are counted. -/
theorem counted (q : Queue) (now receives : Nat) (faults : Faults) :
    Transition q now [] { q with receives := receives, faults := faults } :=
  .rested (.refl _)

end Transition

theorem send_transition (q : Queue) (now : Nat) (body : Bytes) :
    Transition q now (q.sendDeeds body) (q.send body).1 := by
  rcases q.send_cases body with hsend | ⟨faults, error, hsend⟩
  · simp only [sendDeeds, hsend]
    exact .sent body
  · simp only [sendDeeds, hsend]
    exact .counted q now q.receives faults

/-- Whether a receive ends or waits, what it does to the queue is one look. -/
theorem fst_poll (q : Queue) (now max deadline : Nat) :
    (q.poll now max deadline).1 = (q.look now max).1 := by
  rcases q.poll_cases now max deadline with hpoll | ⟨-, _, hpoll⟩
  · rw [hpoll]
  · rw [hpoll]

theorem poll_transition (q : Queue) (now max deadline : Nat) :
    Transition q now [.looked (q.look now max).2] (q.poll now max deadline).1 := by
  rw [fst_poll]
  exact .looked max

theorem receive_transition (q : Queue) (now max wait : Nat) :
    Transition q now (q.receiveDeeds now max) (q.receive now max wait).1 := by
  obtain ⟨faults, result, hbegin⟩ := q.beginReceive_cases
  cases result with
  | error error =>
      simp only [receiveDeeds, receive, hbegin]
      exact .counted q now _ faults
  | ok =>
      simp only [receiveDeeds, receive, hbegin, fst_poll]
      exact .looked max

theorem delete_transition (q : Queue) (now : Nat) (token : String) :
    Transition q now (q.deleteDeeds token) (q.delete token).1 := by
  rcases q.delete_cases token with ⟨lease, hl, rfl, hdelete⟩ | ⟨faults, error, hdelete⟩
  · simp only [deleteDeeds, hdelete]
    exact .deleted hl
  · simp only [deleteDeeds, hdelete]
    exact .counted q now q.receives faults

end Queue

/-! ## Moves -/

namespace Exchange

/-- Drops a waiting receive. -/
def drop (x : Exchange) (name : Nat) : Exchange :=
  { x with waiters := x.waiters.filter fun w => w.name != name }

/-- What a look of a waiting receive does. -/
def lookDeeds (x : Exchange) (name : Nat) : List Deed :=
  match x.waiters.find? (·.name = name) with
  | some w => [.looked (x.queue.look x.now w.poll.max).2]
  | none => []

/-- One move, with what it does. -/
inductive Move (x : Exchange) : List Deed → Exchange → Prop
  | send (body : Bytes) : Move x (x.queue.sendDeeds body) (x.send body).1
  /-- A receive begins, and waits under the next name if it finds nothing. -/
  | begin (max wait : Nat) : Move x (x.queue.receiveDeeds x.now max)
      ({ x with names := x.names + 1 }.settle x.names (x.queue.receive x.now max wait))
  /-- A waiting receive looks. -/
  | look (name : Nat) : Move x (x.lookDeeds name) (x.look name)
  /-- A waiting receive is dropped. -/
  | drop (name : Nat) : Move x [] (x.drop name)
  /-- A receive begins for which whoever makes it waits. -/
  | beginAside (max wait : Nat) : Move x (x.queue.receiveDeeds x.now max)
      { x with queue := (x.queue.receive x.now max wait).1 }
  /-- A receive looks for which whoever has made it waits. -/
  | lookAside (max deadline : Nat) : Move x [.looked (x.queue.look x.now max).2]
      { x with queue := (x.queue.poll x.now max deadline).1 }
  | delete (token : String) : Move x (x.queue.deleteDeeds token)
      { x with queue := (x.queue.delete token).1 }
  /-- Time passes. -/
  | pass (instant : Nat) : Move x [] (x.ring instant)
  /-- The queue is told how many of its next operations shall fail. -/
  | fail (faults : Queue.Faults) : Move x [] { x with queue := { x.queue with faults := faults } }
  /-- Leases are kept in no order. -/
  | reorder (leases : List Lease) (h : leases.Perm x.queue.leased) :
      Move x [] { x with queue := { x.queue with leased := leases } }
  /-- Whoever stands in line, any waiting receive may look. -/
  | reline (names : List Nat) : Move x [] { x with turns := names }

/-- What an exchange can come to by moves, with the history of this. -/
inductive Runs (x₀ : Exchange) : History → Exchange → Prop
  | refl : Runs x₀ [] x₀
  | move {history x deeds x'} (h : Runs x₀ history x) (hmove : Move x deeds x') :
      Runs x₀ (history ++ deeds.map (Prod.mk x.now)) x'

/-- An exchange at which nothing has happened yet. -/
def empty (visibility : Nat) : Exchange where
  queue := { visibility := visibility }

section Frame

variable (x : Exchange) (name : Nat)

theorem queue_settle (r : Queue × PollState) : (x.settle name r).queue = r.1 := by
  obtain ⟨q, state⟩ := r
  cases state <;> rfl

theorem now_settle (r : Queue × PollState) : (x.settle name r).now = x.now := by
  obtain ⟨q, state⟩ := r
  cases state <;> rfl

theorem queue_announce : x.announce.queue = x.queue := by
  unfold announce
  split <;> rfl

theorem now_announce : x.announce.now = x.now := by
  unfold announce
  split <;> rfl

theorem queue_send (body : Bytes) : (x.send body).1.queue = (x.queue.send body).1 := by
  unfold send
  split
  · rename_i hsend
    rw [hsend]
    exact queue_announce _
  · rename_i hsend
    rw [hsend]

theorem now_send (body : Bytes) : (x.send body).1.now = x.now := by
  unfold send
  split
  · exact now_announce _
  · rfl

end Frame

/-- A move does to the queue what its deeds say, and time does not go back. -/
theorem Move.transition {x x' : Exchange} {deeds : List Deed} (h : Move x deeds x') :
    Queue.Transition x.queue x.now deeds x'.queue ∧ x.now ≤ x'.now := by
  cases h with
  | send body =>
      rw [queue_send, now_send]
      exact ⟨x.queue.send_transition x.now body, Nat.le_refl _⟩
  | begin max wait =>
      rw [queue_settle, now_settle]
      exact ⟨x.queue.receive_transition x.now max wait, Nat.le_refl _⟩
  | look name =>
      unfold Exchange.look lookDeeds
      cases x.waiters.find? (·.name = name) with
      | none => exact ⟨.counted x.queue x.now _ _, Nat.le_refl _⟩
      | some w =>
          simp only [queue_settle, now_settle]
          exact ⟨x.queue.poll_transition x.now w.poll.max w.poll.deadline, Nat.le_refl _⟩
  | beginAside max wait => exact ⟨x.queue.receive_transition x.now max wait, Nat.le_refl _⟩
  | lookAside max deadline => exact ⟨x.queue.poll_transition x.now max deadline, Nat.le_refl _⟩
  | delete token => exact ⟨x.queue.delete_transition x.now token, Nat.le_refl _⟩
  | pass instant => exact ⟨.counted x.queue x.now _ _, Nat.le_max_left ..⟩
  | fail faults => exact ⟨.counted x.queue x.now _ faults, Nat.le_refl _⟩
  | reorder leases hperm => exact ⟨.rested hperm, Nat.le_refl _⟩
  | drop name => exact ⟨.counted x.queue x.now _ _, Nat.le_refl _⟩
  | reline names => exact ⟨.counted x.queue x.now _ _, Nat.le_refl _⟩

/-! ## What an exchange does by itself -/

namespace Runs

variable {x₀ x x' : Exchange} {history more : History}

/-- A move that does nothing is not told of. -/
theorem silent (h : Runs x₀ history x) (hmove : Move x [] x') : Runs x₀ history x' := by
  have hnext := h.move hmove
  rwa [List.map_nil, List.append_nil] at hnext

theorem trans (h : Runs x₀ history x) (h' : Runs x more x') : Runs x₀ (history ++ more) x' := by
  induction h' with
  | refl => rwa [List.append_nil]
  | move _ hmove ih =>
      rw [← List.append_assoc]
      exact ih.move hmove

/-- Receives look one after another. -/
private theorem of_looks (h : Runs x₀ history x) (names : List Nat) :
    ∃ more, Runs x₀ (history ++ more) (names.foldl Exchange.look x) := by
  induction names generalizing history x with
  | nil => exact ⟨[], by rwa [List.append_nil]⟩
  | cons name rest ih =>
      obtain ⟨more, hmore⟩ := ih (h.move (.look name))
      exact ⟨_, by rwa [← List.append_assoc]⟩

theorem of_runTurns (h : Runs x₀ history x) :
    ∃ more, Runs x₀ (history ++ more) x.runTurns :=
  (h.silent (.reline [])).of_looks x.turns

/-- A receive begins in the background. -/
theorem of_startReceive (h : Runs x₀ history x) (max wait : Nat) :
    ∃ more, Runs x₀ (history ++ more) (x.startReceive max wait).1 := by
  obtain ⟨more, hmore⟩ := h.of_runTurns
  have hbegun := hmore.move (.begin max wait)
  rw [List.append_assoc] at hbegun
  exact ⟨_, hbegun⟩

theorem of_advanceTo (h : Runs x₀ history x) (fuel target : Nat) :
    ∃ more, Runs x₀ (history ++ more) (advanceTo fuel target x) := by
  induction fuel generalizing history x with
  | zero => exact ⟨[], by rw [List.append_nil]; exact h.silent (.pass target)⟩
  | succ fuel ih =>
      obtain ⟨more, hmore⟩ := h.of_runTurns
      have hrung : Runs x₀ (history ++ more) (x.runTurns.ring target) := hmore.silent (.pass target)
      unfold advanceTo
      simp only
      split
      · rename_i instant _
        split
        · obtain ⟨more', hmore'⟩ := ih (hmore.silent (.pass instant))
          exact ⟨more ++ more', by rwa [← List.append_assoc]⟩
        · exact ⟨more, hrung⟩
      · exact ⟨more, hrung⟩

/-- A span of time passes. -/
theorem of_advance (h : Runs x₀ history x) (span : Nat) :
    ∃ more, Runs x₀ (history ++ more) (x.advance span) := by
  unfold advance
  split
  · exact ⟨[], by rwa [List.append_nil]⟩
  · exact h.of_advanceTo _ _

/-- A receive in the foreground goes on until it ends. -/
private theorem of_follow {r : Queue × PollState} (h : Runs x₀ history { x with queue := r.1 })
    (fuel : Nat) : ∃ more, Runs x₀ (history ++ more) (follow fuel x r).1 := by
  induction fuel generalizing history x r with
  | zero =>
      obtain ⟨q, state⟩ := r
      refine ⟨[], ?_⟩
      rw [List.append_nil]
      cases state <;> exact h
  | succ fuel ih =>
      obtain ⟨q, state⟩ := r
      cases state with
      | finished result => exact ⟨[], by rwa [List.append_nil]⟩
      | waiting poll =>
          obtain ⟨more, hmore⟩ := h.of_advanceTo (poll.lookAt - x.now + 1) poll.lookAt
          obtain ⟨more', hmore'⟩ := ih (hmore.move (.lookAside poll.max poll.deadline))
          rw [List.append_assoc, List.append_assoc] at hmore'
          exact ⟨_, hmore'⟩

/-- A receive is made in the foreground. -/
theorem of_receive (h : Runs x₀ history x) (max wait : Nat) :
    ∃ more, Runs x₀ (history ++ more) (x.receive max wait).1 := by
  obtain ⟨more, hmore⟩ := of_follow (h.move (.beginAside max wait)) (wait + 1)
  rw [List.append_assoc] at hmore
  exact ⟨_, hmore⟩

end Runs

end Exchange

/-! ## Where messages are -/

namespace Queue

/-- Messages with given bodies, numbered from one. -/
def messages (bodies : List Bytes) : List Message := bodies.mapIdx fun i body => ⟨i + 1, body⟩

theorem messages_append_singleton (bodies : List Bytes) (body : Bytes) :
    messages (bodies ++ [body]) = messages bodies ++ [⟨bodies.length + 1, body⟩] :=
  List.mapIdx_concat

theorem length_messages (bodies : List Bytes) : (messages bodies).length = bodies.length :=
  List.length_mapIdx

namespace Transition

variable {q q' : Queue} {now : Nat} {deeds : List Exchange.Deed}

/-- Nothing that can happen makes a queue unsound. -/
theorem sound (h : Transition q now deeds q') (hq : q.Sound) : q'.Sound := by
  cases h with
  | rested hperm => exact { hq.reorder hperm with }
  | sent body => exact hq.push body
  | looked max => exact { hq.look now max with }
  | @deleted lease hl => exact hq.remove hl

/-- Only a send adds to the messages sent. -/
theorem sent_eq (h : Transition q now deeds q') {bodies : List Bytes}
    (hq : q.sent = messages bodies) :
    q'.sent = messages (bodies ++ Exchange.sends (deeds.map (Prod.mk now))) := by
  cases h with
  | sent body =>
      have hlength := congrArg List.length hq
      rw [length_messages] at hlength
      show q.sent ++ [⟨q.sent.length + 1, body⟩] = messages (bodies ++ [body])
      rw [messages_append_singleton, hlength, hq]
  | rested | looked | deleted =>
      show q.sent = messages (bodies ++ [])
      rw [List.append_nil, hq]

end Transition

/-! ### Operations that fail -/

theorem send_error {q : Queue} {body : Bytes} {error : TransportError}
    (h : (q.send body).2 = .error error) :
    (q.send body).1 = { q with faults := { q.faults with sends := q.faults.sends - 1 } } := by
  unfold send at h ⊢
  split at h
  · rename_i hsends
    rw [hsends]
    rfl
  · cases h

theorem receive_error {q q' : Queue} {now max wait : Nat} {error : TransportError}
    (h : q.receive now max wait = (q', .finished (.error error))) :
    q' = { q with
      receives := q.receives + 1
      faults := { q.faults with receives := q.faults.receives - 1 } } := by
  unfold receive beginReceive at h
  simp only at h
  cases hreceives : q.faults.receives with
  | succ n =>
      rw [hreceives] at h
      obtain ⟨rfl, -⟩ := Prod.mk.inj h
      rfl
  | zero =>
      -- a receive that is not told to fail ends with a batch or waits
      rw [hreceives] at h
      rcases poll_cases { q with receives := q.receives + 1 } now max (now + wait) with
        hpoll | ⟨-, _, hpoll⟩
      · cases hpoll.symm.trans h
      · cases hpoll.symm.trans h

theorem delete_error {q : Queue} {token : String} {error : TransportError}
    (h : (q.delete token).2 = .error error) :
    (q.delete token).1 =
      { q with faults := { q.faults with deletes := q.faults.deletes - 1 } } := by
  unfold delete at h ⊢
  split at h
  · rename_i hdeletes
    rw [hdeletes]
    rfl
  · rename_i hdeletes
    split at h
    · cases h
    · -- no deletion shall fail, so that the count stays at zero
      have hcount : q.faults.deletes - 1 = q.faults.deletes := by omega
      rw [hcount]

end Queue

namespace Exchange

variable {visibility : Nat} {history : History} {x : Exchange}

theorem Runs.sound (h : Runs (empty visibility) history x) : x.queue.Sound := by
  induction h with
  | refl => exact .empty visibility
  | move _ hmove ih => exact hmove.transition.1.sound ih

/-- A message that the queue does not take is not announced. -/
theorem send_of_error {body : Bytes} {error : TransportError} (h : (x.send body).2 = .error error) :
    (x.queue.send body).2 = .error error ∧
      (x.send body).1 = { x with queue := (x.queue.send body).1 } := by
  unfold Exchange.send at h ⊢
  split at h
  · cases h
  · rename_i hsend
    rw [hsend]
    exact ⟨h, rfl⟩

/-- The messages sent are those that the history tells of. -/
theorem Runs.sent_eq (h : Runs (empty visibility) history x) :
    x.queue.sent = Queue.messages (sends history) := by
  induction h with
  | refl => rfl
  | move _ hmove ih =>
      rw [sends_append]
      exact hmove.transition.1.sent_eq ih

/--
Whatever happens at an exchange, every message sent has kept its body and is
in one place, once: in line, under a lease or among the deleted.  Nothing
else is in these places.  A send, receive or deletion that fails changes only
the counts of faults and of receives.
-/
theorem messages_conserved (h : Runs (empty visibility) history x) :
    x.queue.sent = Queue.messages (sends history) ∧
      (∀ m ∈ x.queue.sent, x.queue.visible.count m +
        (x.queue.leased.map (·.delivery.message)).count m + x.queue.deleted.count m = 1) ∧
      (∀ m, m ∈ x.queue.visible ∨ m ∈ x.queue.leased.map (·.delivery.message) ∨
        m ∈ x.queue.deleted → m ∈ x.queue.sent) ∧
      (∀ body error, (x.send body).2 = .error error →
        (x.send body).1 = { x with queue := { x.queue with
          faults := { x.queue.faults with sends := x.queue.faults.sends - 1 } } }) ∧
      (∀ max wait q error,
        x.queue.receive x.now max wait = (q, .finished (.error error)) →
        q = { x.queue with
          receives := x.queue.receives + 1
          faults := { x.queue.faults with receives := x.queue.faults.receives - 1 } }) ∧
      ∀ token error, (x.queue.delete token).2 = .error error →
        (x.queue.delete token).1 = { x.queue with
          faults := { x.queue.faults with deletes := x.queue.faults.deletes - 1 } } := by
  have hsound := h.sound
  refine ⟨h.sent_eq, ?_, ?_, ?_, ?_, ?_⟩
  · intro m hm
    have hcount := hsound.conserved.count_eq m
    rw [List.count_eq_one_of_mem hsound.sent_nodup hm, Queue.held, List.count_append,
      List.count_append] at hcount
    exact hcount
  · intro m hm
    refine hsound.conserved.subset ?_
    simpa only [Queue.held, List.mem_append, or_assoc] using hm
  · intro body error hfailed
    obtain ⟨hqueue, hx⟩ := send_of_error hfailed
    rw [hx, Queue.send_error hqueue]
  · intro max wait q error hreceive
    exact Queue.receive_error hreceive
  · intro token error hdelete
    exact Queue.delete_error hdelete

/-- With leases that expire at once a message is delivered twice, and the older token fails. -/
theorem messages_conserved_of_redelivery :
    ∃ history x, Runs (empty 0) history x ∧ sends history = [[7]] ∧
      (deliveries history).map (·.2.number) = [1, 2] ∧ x.queue.sent = [⟨1, [7]⟩] ∧
      x.queue.visible.count ⟨1, [7]⟩ + (x.queue.leased.map (·.delivery.message)).count ⟨1, [7]⟩ +
        x.queue.deleted.count ⟨1, [7]⟩ = 1 ∧
      ∃ error, (x.queue.delete (Queue.token 1 1)).2 = .error error ∧
        (x.queue.delete (Queue.token 1 1)).1 = { x.queue with
          faults := { x.queue.faults with deletes := x.queue.faults.deletes - 1 } } := by
  have hsent : Runs (empty 0) _ _ := .move .refl (.send [7])
  have hwaiting := (hsent.move (.begin 1 0)).move (.begin 1 100)
  obtain ⟨history, x, hruns, hsends, hnumbers, hqueue, hstale⟩ :
      ∃ history x, Runs (empty 0) history x ∧ sends history = [[7]] ∧
        (deliveries history).map (·.2.number) = [1, 2] ∧ x.queue.sent = [⟨1, [7]⟩] ∧
        x.queue.delete (Queue.token 1 1) = (x.queue,
          .error (.delete ("receipt handle " ++ Queue.token 1 1 ++ " is not valid"))) :=
    ⟨_, _, hwaiting, by decide, by decide, by decide, by decide +kernel⟩
  obtain ⟨-, honce, -, -, -, hdelete⟩ := messages_conserved hruns
  have hfailed := congrArg Prod.snd hstale
  refine ⟨history, x, hruns, hsends, hnumbers, hqueue, ?_, _, hfailed, hdelete _ _ hfailed⟩
  refine honce _ ?_
  rw [hqueue]
  exact List.mem_singleton_self _

end Exchange

end ProductCatalog
