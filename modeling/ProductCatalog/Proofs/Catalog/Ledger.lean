import ProductCatalog.Catalog.Interleaving
import ProductCatalog.Proofs.Event.Spelling
import ProductCatalog.Proofs.Store.Basic

/-!
# What calls leave behind

The *ledger* of a catalog is everything that a call can leave behind:
committed rows, reserved keys, events sent, and the two counters.  Faults,
supply, trace and log are left out.  Every operation of a catalog is
described once, by what it does to the ledger and by the mark that it leaves
in the trace; nothing later unfolds it.

An *attempt* is a try to send an event, with or without success.  The
queue keeps only the events of successful attempts.

## Main results

* `insert_cases`, `publish_cases`, `commit_cases`, `undo_ledger`,
  `deleteRow_cases` — the operations.
* `Catalog.trace_begin`, `trace_insert`, `trace_publish` and so on — their
  marks in the trace.
* `CreateCall.step_transition`, `DeleteCall.step_transition` — what one step
  of a call can do.
-/

namespace ProductCatalog

/-- What calls can leave behind in a catalog. -/
structure Ledger where
  rows : List Product
  reserved : List ProductKey
  events : List LifecycleEvent
  created : Nat
  deleted : Nat

namespace Ledger

/-- Whether a key is reserved or held by a committed row. -/
def keyTaken (l : Ledger) (key : ProductKey) : Bool :=
  l.reserved.contains key || l.rows.any fun p => p.key = key

/-- Reserves a key. -/
def reserve (l : Ledger) (key : ProductKey) : Ledger := { l with reserved := l.reserved ++ [key] }

/-- Gives keys back. -/
def release (l : Ledger) (keys : List ProductKey) : Ledger :=
  { l with reserved := l.reserved.filter fun key => !keys.contains key }

/-- Adds events to those sent. -/
def send (l : Ledger) (events : List LifecycleEvent) : Ledger :=
  { l with events := l.events ++ events }

@[simp] theorem release_nil (l : Ledger) : l.release [] = l := by
  have hfilter : l.reserved.filter (fun key => !([] : List ProductKey).contains key) = l.reserved :=
    List.filter_eq_self.2 fun _ _ => rfl
  rw [release, hfilter]

/-- Giving a key back undoes its reservation, if it was free before. -/
theorem release_reserve {l : Ledger} {key : ProductKey} (h : l.keyTaken key = false) :
    (l.reserve key).release [key] = l := by
  have hfree : ∀ k ∈ l.reserved, k ≠ key := by
    intro k hk heq
    subst heq
    simp [keyTaken, hk] at h
  have hfilter : l.reserved.filter (fun k => !([key] : List ProductKey).contains k) =
      l.reserved := by
    rw [List.filter_eq_self]
    intro k hk
    simpa using hfree k hk
  rw [reserve, release]
  simp only [List.filter_append, hfilter]
  simp

@[simp] theorem send_nil (l : Ledger) : l.send [] = l := by
  simp [send]

theorem release_send (l : Ledger) (keys : List ProductKey) (events : List LifecycleEvent) :
    (l.send events).release keys = (l.release keys).send events := rfl

end Ledger

namespace Catalog

/-- What calls have left behind in a catalog. -/
def ledger (c : Catalog) : Ledger where
  rows := c.store.rows
  reserved := c.store.reserved
  events := c.events
  created := c.created
  deleted := c.deleted

/-- Numbers of faults for every kind of call. -/
structure Injection where
  calls : Catalog.Faults := {}
  store : Store.Faults := {}
  queue : Queue.Faults := {}

/-- Sets the number of next calls of each kind that shall fail. -/
def inject (c : Catalog) (i : Injection) : Catalog :=
  { c with
    faults := i.calls
    store := { c.store with faults := i.store }
    queue := { c.queue with faults := i.queue } }

/-! ## The operations -/

/-- The failure of a commit that was told to fail.  Nothing else fails in this way. -/
def commitFailure : CatalogError := .internal "injected commit failure"

/-- Beginning a transaction leaves nothing behind. -/
theorem begin_cases (c : Catalog) :
    (∃ c', c.begin = (c', .ok {}) ∧ c'.ledger = c.ledger ∧ c'.supply = c.supply) ∨
      ∃ c' e, c.begin = (c', .error e) ∧ e ≠ commitFailure ∧
        c'.ledger = c.ledger ∧ c'.supply = c.supply := by
  unfold begin
  simp only
  split
  · exact .inr ⟨_, _, rfl, by decide, rfl, rfl⟩
  · exact .inl ⟨_, rfl, rfl, rfl⟩

/-- An insert either reserves a free key for a product with a fresh id, or leaves nothing behind. -/
theorem insert_cases (c : Catalog) (tx : Transaction) (input : NewProduct) :
    (∃ c', c.insert tx input =
          (c', ⟨tx.pending ++ [input.stamped c.supply.id c.supply.now]⟩,
            .ok (input.stamped c.supply.id c.supply.now)) ∧
        c.ledger.keyTaken input.key = false ∧
        c'.ledger = c.ledger.reserve input.key ∧ c'.supply = c.supply.next) ∨
      ∃ c' e, c.insert tx input = (c', tx, .error e) ∧ e ≠ commitFailure ∧
        c'.ledger = c.ledger ∧ c'.supply = c.supply := by
  rcases c.store.insert_cases tx input c.supply.id c.supply.now with
    ⟨-, faults, h⟩ | ⟨-, -, h⟩ | ⟨-, hfree, h⟩
  · simp only [insert, mark, Store.insertFrom, h]
    exact .inr ⟨_, _, rfl, by decide, rfl, rfl⟩
  · simp only [insert, mark, Store.insertFrom, h]
    exact .inr ⟨_, _, rfl, by decide, rfl, rfl⟩
  · simp only [insert, mark, Store.insertFrom, h]
    exact .inl ⟨_, rfl, hfree, rfl, rfl⟩

private theorem queueSend_cases (q : Queue) (event : LifecycleEvent) :
    (∃ q', q.send event.encode = (q', .ok ()) ∧ q'.sentEvents = q.sentEvents ++ [event]) ∨
      ∃ q', q.send event.encode = (q', .error (.send "injected send failure")) ∧
        q'.sentEvents = q.sentEvents := by
  unfold Queue.send
  split
  · exact .inr ⟨_, rfl, rfl⟩
  · refine .inl ⟨_, rfl, ?_⟩
    simp [Queue.sentEvents, Queue.push, decode_encode, Except.toOption]

/-- A publication adds its event if the queue takes it, and leaves nothing behind otherwise. -/
theorem publish_cases (c : Catalog) (event : LifecycleEvent) :
    (∃ c', c.publish event = (c', .ok ()) ∧ c'.ledger = c.ledger.send [event] ∧
        c'.supply = c.supply) ∨
      ∃ c', c.publish event = (c', .error (.send "injected send failure")) ∧
        c'.ledger = c.ledger ∧ c'.supply = c.supply := by
  rcases queueSend_cases c.queue event with ⟨q', h, hsent⟩ | ⟨q', h, hsent⟩
  · simp only [publish, mark, h]
    refine .inl ⟨_, rfl, ?_, rfl⟩
    simp only [ledger, events, hsent]
    rfl
  · simp only [publish, mark, h]
    refine .inr ⟨_, rfl, ?_, rfl⟩
    simp only [ledger, events, hsent]

/-- A commit gives the transaction's keys back.  Only if it succeeds its products become rows. -/
theorem commit_cases (c : Catalog) (tx : Transaction) :
    (∃ c', c.commit tx = (c', .ok ()) ∧ c'.supply = c.supply ∧
        c'.ledger = { c.ledger.release tx.keys with rows := c.ledger.rows ++ tx.pending }) ∨
      ∃ c', c.commit tx = (c', .error commitFailure) ∧ c'.supply = c.supply ∧
        c'.ledger = c.ledger.release tx.keys := by
  unfold commit Store.commit
  simp only
  cases hfaults : (c.mark .commit).store.faults.commits with
  | succ n => exact .inr ⟨_, rfl, rfl, rfl⟩
  | zero => exact .inl ⟨_, rfl, rfl, rfl⟩

/-- Undoing a transaction gives its keys back, whether or not the rollback reports a failure. -/
theorem undo_ledger (c : Catalog) (tx : Transaction) :
    (c.undo tx).ledger = c.ledger.release tx.keys ∧ (c.undo tx).supply = c.supply := by
  unfold undo rollback
  simp only
  cases hfaults : ((c.mark .rollback).dropTransaction tx).faults.rollbacks with
  | succ n => exact ⟨rfl, rfl⟩
  | zero => exact ⟨rfl, rfl⟩

/-- A deletion removes the row of its id if there is one, and leaves nothing behind otherwise. -/
theorem deleteRow_cases (c : Catalog) (id : ProductId) :
    (∃ c', c.deleteRow id = (c', .ok ()) ∧ (∃ p ∈ c.ledger.rows, p.id = id) ∧
        c'.supply = c.supply ∧
        c'.ledger = { c.ledger with rows := c.ledger.rows.filter fun p => p.id != id }) ∨
      ∃ c' e, c.deleteRow id = (c', .error e) ∧ c'.ledger = c.ledger ∧ c'.supply = c.supply := by
  unfold deleteRow
  simp only
  cases hfaults : (c.mark .delete).faults.deletes with
  | succ n => exact .inr ⟨_, _, rfl, rfl, rfl⟩
  | zero =>
      rcases c.store.delete_cases id with ⟨hrow, h⟩ | ⟨-, h⟩
      · simp only [mark, h]
        exact .inl ⟨_, rfl, hrow, rfl, rfl⟩
      · simp only [mark, h]
        exact .inr ⟨_, _, rfl, rfl, rfl⟩

/-- A listing leaves nothing behind. -/
theorem list_ledger (c : Catalog) (window : Pagination) :
    (c.list window).1.ledger = c.ledger ∧ (c.list window).1.supply = c.supply := by
  unfold list
  simp only
  split <;> exact ⟨rfl, rfl⟩

/-! ## Their marks in the trace -/

theorem trace_begin (c : Catalog) : c.begin.1.trace = c.trace ++ [.begin] := by
  simp only [begin]
  split <;> rfl

theorem trace_insert (c : Catalog) (tx : Transaction) (input : NewProduct) :
    (c.insert tx input).1.trace = c.trace ++ [.insert] := rfl

theorem trace_publish (c : Catalog) (event : LifecycleEvent) :
    (c.publish event).1.trace = c.trace ++ [.send] := by
  simp only [publish]
  split <;> rfl

theorem trace_commit (c : Catalog) (tx : Transaction) :
    (c.commit tx).1.trace = c.trace ++ [.commit] := rfl

theorem trace_undo (c : Catalog) (tx : Transaction) :
    (c.undo tx).trace = c.trace ++ [.rollback] := by
  simp only [undo, rollback]
  cases ((c.mark .rollback).dropTransaction tx).faults.rollbacks <;> rfl

theorem trace_deleteRow (c : Catalog) (id : ProductId) :
    (c.deleteRow id).1.trace = c.trace ++ [.delete] := by
  simp only [deleteRow]
  split <;> rfl

theorem trace_list (c : Catalog) (window : Pagination) :
    (c.list window).1.trace = c.trace ++ [.list] := by
  simp only [list]
  split <;> rfl

end Catalog

/-! ## Attempts to send -/

/-- A try to send an event. -/
structure Attempt where
  event : LifecycleEvent
  /-- Whether the queue has taken the event. -/
  accepted : Bool
deriving DecidableEq

/-- The events of the attempts that the queue has taken. -/
def accepted (attempts : List Attempt) : List LifecycleEvent :=
  (attempts.filter (·.accepted)).map (·.event)

@[simp] theorem accepted_append (xs ys : List Attempt) :
    accepted (xs ++ ys) = accepted xs ++ accepted ys := by
  simp [accepted]

/-- The event that a creation tries to send in its next step. -/
def CreateCall.publication? : CreateCall → Option LifecycleEvent
  | inserted product _ => some ⟨.created, product.id⟩
  | retracting product _ => some ⟨.deleted, product.id⟩
  | start _ | begun .. | published .. | failing .. | finished _ => none

/-- The event that a deletion tries to send in its next step. -/
def DeleteCall.publication? : DeleteCall → Option LifecycleEvent
  | removed id => some ⟨.deleted, id⟩
  | start _ | finished _ => none

/-- The event that a call tries to send in its next step. -/
def Call.publication? : Call → Option LifecycleEvent
  | create call => call.publication?
  | delete call => call.publication?
  | list _ | listed _ => none

/-- The attempts to send, one at most, that a call makes in its next step. -/
def Call.attempts (c : Catalog) (call : Call) : List Attempt :=
  call.publication?.toList.map fun event => ⟨event, (c.publish event).2.isOk⟩

theorem Call.attempts_of_publish {c c' : Catalog} {call : Call} {event : LifecycleEvent}
    {result : Except TransportError Unit} (hnext : call.publication? = some event)
    (h : c.publish event = (c', result)) : call.attempts c = [⟨event, result.isOk⟩] := by
  simp only [attempts, hnext, h, Option.toList_some, List.map_cons, List.map_nil]

/-! ## What one step of a call can do -/

open Catalog in
/--
The steps of a creation: the call before, the catalog after, the call after,
and the attempts made.
-/
inductive CreateCall.Transition (c : Catalog) :
    CreateCall → Catalog → CreateCall → List Attempt → Prop
  | begun {input c'} (hl : c'.ledger = c.ledger) (hs : c'.supply = c.supply) :
      Transition c (.start input) c' (.begun input {}) []
  | notBegun {input c' e} (he : e ≠ commitFailure) (hl : c'.ledger = c.ledger)
      (hs : c'.supply = c.supply) :
      Transition c (.start input) c' (.finished (.error e)) []
  | inserted {input tx c' product} (hp : product = input.stamped c.supply.id c.supply.now)
      (hfree : c.ledger.keyTaken input.key = false)
      (hl : c'.ledger = c.ledger.reserve input.key) (hs : c'.supply = c.supply.next) :
      Transition c (.begun input tx) c' (.inserted product ⟨tx.pending ++ [product]⟩) []
  | notInserted {input tx c' e} (he : e ≠ commitFailure) (hl : c'.ledger = c.ledger)
      (hs : c'.supply = c.supply) :
      Transition c (.begun input tx) c' (.failing tx e) []
  | announced {product tx c'} (hl : c'.ledger = c.ledger.send [⟨.created, product.id⟩])
      (hs : c'.supply = c.supply) :
      Transition c (.inserted product tx) c' (.published product tx)
        [⟨⟨.created, product.id⟩, true⟩]
  | notAnnounced {product tx c' e} (he : e ≠ commitFailure) (hl : c'.ledger = c.ledger)
      (hs : c'.supply = c.supply) :
      Transition c (.inserted product tx) c' (.failing tx e)
        [⟨⟨.created, product.id⟩, false⟩]
  | committed {product tx c'}
      (hl : c'.ledger = { c.ledger.release tx.keys with
        rows := c.ledger.rows ++ tx.pending, created := c.ledger.created + 1 })
      (hs : c'.supply = c.supply) :
      Transition c (.published product tx) c' (.finished (.ok product)) []
  | notCommitted {product tx c'} (hl : c'.ledger = c.ledger.release tx.keys)
      (hs : c'.supply = c.supply) :
      Transition c (.published product tx) c' (.retracting product commitFailure) []
  | undone {tx e c'} (hl : c'.ledger = c.ledger.release tx.keys) (hs : c'.supply = c.supply) :
      Transition c (.failing tx e) c' (.finished (.error e)) []
  | retracted {product e c'} (accepted : Bool)
      (hl : c'.ledger = c.ledger.send (if accepted then [⟨.deleted, product.id⟩] else []))
      (hs : c'.supply = c.supply) :
      Transition c (.retracting product e) c' (.finished (.error e))
        [⟨⟨.deleted, product.id⟩, accepted⟩]
  | rested {result} : Transition c (.finished result) c (.finished result) []

/-- Every step of a creation is one of its transitions. -/
theorem CreateCall.step_transition (c : Catalog) (call : CreateCall) :
    CreateCall.Transition c call (call.step c).1 (call.step c).2
      ((Call.create call).attempts c) := by
  cases call with
  | start input =>
      rcases c.begin_cases with ⟨c', h, hl, hs⟩ | ⟨c', e, h, he, hl, hs⟩
      · simp only [step, h]
        exact .begun hl hs
      · simp only [step, h]
        exact .notBegun he hl hs
  | begun input tx =>
      rcases c.insert_cases tx input with ⟨c', h, hfree, hl, hs⟩ | ⟨c', e, h, he, hl, hs⟩
      · simp only [step, h]
        exact .inserted rfl hfree hl hs
      · simp only [step, h]
        exact .notInserted he hl hs
  | inserted product tx =>
      rcases c.publish_cases ⟨.created, product.id⟩ with ⟨c', h, hl, hs⟩ | ⟨c', h, hl, hs⟩
      · rw [Call.attempts_of_publish rfl h]
        simp only [step, h]
        exact .announced hl hs
      · rw [Call.attempts_of_publish rfl h]
        simp only [step, h]
        exact .notAnnounced (by decide) hl hs
  | published product tx =>
      rcases c.commit_cases tx with ⟨c', h, hs, hl⟩ | ⟨c', h, hs, hl⟩
      · simp only [step, h]
        refine .committed ?_ hs
        show ({ c'.ledger with created := c'.created + 1 } : Ledger) = _
        have hcreated : c'.created = c.ledger.created := congrArg Ledger.created hl
        rw [hl, hcreated]
      · simp only [step, h]
        exact .notCommitted hl hs
  | failing tx e =>
      obtain ⟨hl, hs⟩ := c.undo_ledger tx
      exact .undone hl hs
  | retracting product e =>
      rcases c.publish_cases ⟨.deleted, product.id⟩ with ⟨c', h, hl, hs⟩ | ⟨c', h, hl, hs⟩
      · rw [Call.attempts_of_publish rfl h]
        simp only [step, h]
        exact .retracted true hl hs
      · rw [Call.attempts_of_publish rfl h]
        simp only [step, h]
        exact .retracted false (hl.trans (Ledger.send_nil _).symm) hs
  | finished result => exact .rested

open Catalog in
/-- The steps of a deletion. -/
inductive DeleteCall.Transition (c : Catalog) :
    DeleteCall → Catalog → DeleteCall → List Attempt → Prop
  | removed {id c'} (hrow : ∃ p ∈ c.ledger.rows, p.id = id)
      (hl : c'.ledger = { c.ledger with rows := c.ledger.rows.filter fun p => p.id != id })
      (hs : c'.supply = c.supply) :
      Transition c (.start id) c' (.removed id) []
  | notRemoved {id c' e} (hl : c'.ledger = c.ledger) (hs : c'.supply = c.supply) :
      Transition c (.start id) c' (.finished (.error e)) []
  | announced {id c'} (accepted : Bool)
      (hl : c'.ledger = { c.ledger.send (if accepted then [⟨.deleted, id⟩] else []) with
        deleted := c.ledger.deleted + 1 })
      (hs : c'.supply = c.supply) :
      Transition c (.removed id) c' (.finished (.ok ())) [⟨⟨.deleted, id⟩, accepted⟩]
  | rested {result} : Transition c (.finished result) c (.finished result) []

/-- Every step of a deletion is one of its transitions. -/
theorem DeleteCall.step_transition (c : Catalog) (call : DeleteCall) :
    DeleteCall.Transition c call (call.step c).1 (call.step c).2
      ((Call.delete call).attempts c) := by
  cases call with
  | start id =>
      rcases c.deleteRow_cases id with ⟨c', h, hrow, hs, hl⟩ | ⟨c', e, h, hl, hs⟩
      · simp only [step, h]
        exact .removed hrow hl hs
      · simp only [step, h]
        exact .notRemoved hl hs
  | removed id =>
      rcases c.publish_cases ⟨.deleted, id⟩ with ⟨c', h, hl, hs⟩ | ⟨c', h, hl, hs⟩
      · have hdeleted : c'.deleted = c.ledger.deleted := congrArg Ledger.deleted hl
        rw [Call.attempts_of_publish rfl h]
        simp only [step, h]
        refine .announced true ?_ hs
        show ({ c'.ledger with deleted := c'.deleted + 1 } : Ledger) = _
        rw [hl, hdeleted]
        rfl
      · have hdeleted : c'.deleted = c.ledger.deleted := congrArg Ledger.deleted hl
        rw [Call.attempts_of_publish rfl h]
        simp only [step, h]
        refine .announced false ?_ hs
        show ({ c'.ledger with deleted := c'.deleted + 1 } : Ledger) = _
        rw [hl, hdeleted]
        simp
  | finished result => exact .rested

end ProductCatalog
