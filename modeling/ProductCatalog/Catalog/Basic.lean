import ProductCatalog.Event.Report
import ProductCatalog.Queue.Basic
import ProductCatalog.Store.Sessions

/-!
# The catalog

The catalog is the store together with the queue to which its lifecycle
events go. It counts creations and deletions, keeps a trace of the calls
made to the store and the queue, and keeps a log. Beginnings, listings,
rollbacks and deletions can be told to fail as well; a rollback that fails
has still ended its transaction.

## Main definitions

* `Catalog` — the state.
* `Catalog.begin`, `insert`, `commit`, `rollback`, `deleteRow`, `publish` —
  single steps of calls, each leaving its mark in the trace.
-/

namespace ProductCatalog

/-- A call made to the store or the queue. -/
inductive CallKind
  | begin
  | insert
  | send
  | commit
  | rollback
  | delete
  | list
deriving Repr, DecidableEq

/-- The name of a call. -/
def CallKind.name : CallKind → String
  | begin => "begin"
  | insert => "insert"
  | send => "send"
  | commit => "commit"
  | rollback => "rollback"
  | delete => "delete"
  | list => "list"

/-- How many of the next calls shall fail, besides those that store and queue count themselves. -/
structure Catalog.Faults where
  begins : Nat := 0
  lists : Nat := 0
  rollbacks : Nat := 0
  deletes : Nat := 0
deriving Repr, DecidableEq

/-- The store, the queue for events, and what is remembered about their use. -/
structure Catalog where
  store : Store := {}
  queue : Queue
  supply : Supply
  faults : Catalog.Faults := {}
  /-- Number of successful creations. -/
  created : Nat := 0
  /-- Number of successful deletions. -/
  deleted : Nat := 0
  /-- Calls to the store and the queue, in order. -/
  trace : List CallKind := []
  log : List LogEntry := []

namespace Catalog

/-- A catalog without products whose supply is given. -/
def empty (supply : Supply) : Catalog where
  queue := { visibility := Queue.defaultVisibility }
  supply := supply

/-- Leaves the mark of a call in the trace. -/
def mark (c : Catalog) (kind : CallKind) : Catalog := { c with trace := c.trace ++ [kind] }

/-- Adds a log entry. -/
def tell (c : Catalog) (level : LogLevel) (message : String) (fields : List (String × String)) :
    Catalog :=
  { c with log := c.log ++ [⟨level, message, fields⟩] }

/-- The failure of a call that was told to fail. -/
def injected (what : String) : CatalogError := .internal ("injected " ++ what ++ " failure")

/-- Begins a transaction. -/
def begin (c : Catalog) : Catalog × Except CatalogError Transaction :=
  let c := c.mark .begin
  match c.faults.begins with
  | n + 1 => ({ c with faults := { c.faults with begins := n } }, .error (injected "begin"))
  | 0 => (c, .ok {})

/-- Inserts a product into a transaction. -/
def insert (c : Catalog) (tx : Transaction) (input : NewProduct) :
    Catalog × Transaction × Except CatalogError Product :=
  let c := c.mark .insert
  let (store, tx, supply, result) := c.store.insertFrom tx input c.supply
  ({ c with store, supply }, tx, result)

/-- Commits a transaction. -/
def commit (c : Catalog) (tx : Transaction) : Catalog × Except CatalogError Unit :=
  let c := c.mark .commit
  let (store, result) := c.store.commit tx
  ({ c with store }, result)

/-- Ends a transaction that nobody will ask about any more. -/
def dropTransaction (c : Catalog) (tx : Transaction) : Catalog :=
  { c with store := c.store.release tx }

/-- Rolls a transaction back. -/
def rollback (c : Catalog) (tx : Transaction) : Catalog × Except CatalogError Unit :=
  let c := (c.mark .rollback).dropTransaction tx
  match c.faults.rollbacks with
  | n + 1 => ({ c with faults := { c.faults with rollbacks := n } }, .error (injected "rollback"))
  | 0 => (c, .ok ())

/-- Rolls a transaction back; a failure is only logged. -/
def undo (c : Catalog) (tx : Transaction) : Catalog :=
  match c.rollback tx with
  | (c, .ok ()) => c
  | (c, .error e) => c.tell .warn "transaction rollback failed" [("error", e.message)]

/-- Deletes a committed product. -/
def deleteRow (c : Catalog) (id : ProductId) : Catalog × Except CatalogError Unit :=
  let c := c.mark .delete
  match c.faults.deletes with
  | n + 1 => ({ c with faults := { c.faults with deletes := n } }, .error (injected "delete"))
  | 0 =>
    let (store, result) := c.store.delete id
    ({ c with store }, result)

/-- Lists a window of the committed products. -/
def list (c : Catalog) (window : Pagination) : Catalog × Except CatalogError ProductPage :=
  let c := c.mark .list
  match c.faults.lists with
  | n + 1 => ({ c with faults := { c.faults with lists := n } }, .error (injected "list"))
  | 0 => (c, .ok (c.store.list window))

/-- Sends an event. -/
def publish (c : Catalog) (event : LifecycleEvent) : Catalog × Except TransportError Unit :=
  let c := c.mark .send
  match c.queue.send event.encode with
  | (queue, .ok ()) =>
    ({ c with queue, log := c.log ++ [event.publishedEntry] }, .ok ())
  | (queue, .error e) => ({ c with queue }, .error e)

/-- The events sent, in order. -/
def events (c : Catalog) : List LifecycleEvent := c.queue.sentEvents

end Catalog

end ProductCatalog
