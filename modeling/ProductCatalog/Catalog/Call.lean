import ProductCatalog.Catalog.Basic

/-!
# Creating, deleting and listing products

A creation inserts the product in a transaction, publishes its event, and
then commits. If publishing fails, the transaction is rolled back; if the
commit fails, the event is taken back by a second one. A deletion deletes
the row first and publishes afterwards; a failure to publish is logged and
the product stays deleted.

Each call is a small machine whose state says which step comes next, so
that the steps of many calls may be interleaved in any order. A call can
also be abandoned between two steps, or while a step never answers; its
transaction is then dropped.

## Main definitions

* `CreateCall`, `CreateCall.step` — a creation, step by step.
* `DeleteCall`, `DeleteCall.step` — a deletion, step by step.
* `CreateCall.abandon`, `abandonInside` — a creation nobody waits for.
* `Catalog.create`, `Catalog.delete` — calls that run undisturbed.
-/

namespace ProductCatalog

open Catalog

/-! ## Creations -/

/-- A creation, by the step that comes next. -/
inductive CreateCall
  /-- Begin a transaction. -/
  | start (input : NewProduct)
  /-- Insert the product. -/
  | begun (input : NewProduct) (tx : Transaction)
  /-- Publish the creation. -/
  | inserted (product : Product) (tx : Transaction)
  /-- Commit the transaction. -/
  | published (product : Product) (tx : Transaction)
  /-- Roll the transaction back and fail. -/
  | failing (tx : Transaction) (error : CatalogError)
  /-- Publish a deletion that takes the creation back, and fail. -/
  | retracting (product : Product) (error : CatalogError)
  /-- Nothing. -/
  | finished (result : Except CatalogError Product)

namespace CreateCall

/-- The call that the next step makes. -/
def next? : CreateCall → Option CallKind
  | start _ => some .begin
  | begun .. => some .insert
  | inserted .. => some .send
  | published .. => some .commit
  | failing .. => some .rollback
  | retracting .. => some .send
  | finished _ => none

/-- The result of a call that has ended. -/
def result? : CreateCall → Option (Except CatalogError Product)
  | finished result => some result
  | _ => none

/-- The fields by which log entries name a product and a failure. -/
private def failureFields (product : Product) (reason : String) : List (String × String) :=
  [("product_id", product.id.text), ("error", reason)]

/-- Makes the next step. -/
def step (c : Catalog) : CreateCall → Catalog × CreateCall
  | start input =>
    match c.begin with
    | (c, .ok tx) => (c, begun input tx)
    | (c, .error e) => (c, finished (.error e))
  | begun input tx =>
    match c.insert tx input with
    | (c, tx, .ok product) => (c, inserted product tx)
    | (c, tx, .error e) => (c, failing tx e)
  | inserted product tx =>
    match c.publish ⟨.created, product.id⟩ with
    | (c, .ok ()) => (c, published product tx)
    | (c, .error e) =>
      (c.tell .error "failed to publish creation event; rolling back"
          (failureFields product e.publishMessage),
        failing tx (.internal e.publishMessage))
  | published product tx =>
    match c.commit tx with
    | (c, .ok ()) =>
      ({ c with created := c.created + 1 }.tell .info "product created"
          [("product_id", product.id.text)],
        finished (.ok product))
    | (c, .error e) =>
      (c.tell .error "commit failed after creation event was published"
          (failureFields product e.message),
        retracting product e)
  | failing tx e => (c.undo tx, finished (.error e))
  | retracting product e =>
    match c.publish ⟨.deleted, product.id⟩ with
    | (c, .ok ()) =>
      (c.tell .warn "published compensating deletion event" [("product_id", product.id.text)],
        finished (.error e))
    | (c, .error failure) =>
      (c.tell .error ("failed to publish compensating deletion event; " ++
            "consumers may see a product that does not exist")
          (failureFields product failure.publishMessage),
        finished (.error e))
  | finished result => (c, finished result)

/-- Makes a number of steps. -/
def steps : Nat → Catalog → CreateCall → Catalog × CreateCall
  | 0, c, call => (c, call)
  | n + 1, c, call =>
    let (c, call) := call.step c
    steps n c call

/-- Drops a call between two steps: an open transaction is dropped with it. -/
def abandon (c : Catalog) : CreateCall → Catalog
  | begun _ tx | inserted _ tx | published _ tx | failing tx _ => c.dropTransaction tx
  | start _ | retracting .. | finished _ => c

/-- Drops a call while its next step has been asked for and never answers. -/
def abandonInside (c : Catalog) (call : CreateCall) : Catalog :=
  match call.next? with
  | some kind => call.abandon (c.mark kind)
  | none => c

end CreateCall

/-- Creates a product without a disturbance. A creation has at most five steps. -/
def Catalog.create (c : Catalog) (input : NewProduct) : Catalog × Except CatalogError Product :=
  match CreateCall.steps 5 c (.start input) with
  | (c, .finished result) => (c, result)
  | (c, _) => (c, .error (.internal "unfinished"))

/-- Creates products one after another, up to the first failure. -/
def Catalog.createAll (c : Catalog) : List NewProduct → Catalog × Except CatalogError Unit
  | [] => (c, .ok ())
  | input :: rest =>
    match c.create input with
    | (c, .ok _) => c.createAll rest
    | (c, .error e) => (c, .error e)

/-- Creates a product whose event is asked to be sent and never is, until the call is dropped. A
call that ends before that has a result. -/
def Catalog.createAbandoned (c : Catalog) (input : NewProduct) :
    Catalog × Option (Except CatalogError Product) :=
  match CreateCall.steps 2 c (.start input) with
  | (c, .inserted product tx) => (CreateCall.abandonInside c (.inserted product tx), none)
  | (c, call) =>
    let (c, call) := CreateCall.steps 3 c call
    (c, call.result?)

/-! ## Deletions -/

/-- A deletion, by the step that comes next. -/
inductive DeleteCall
  /-- Delete the row. -/
  | start (id : ProductId)
  /-- Publish the deletion. -/
  | removed (id : ProductId)
  /-- Nothing. -/
  | finished (result : Except CatalogError Unit)

namespace DeleteCall

/-- Makes the next step. -/
def step (c : Catalog) : DeleteCall → Catalog × DeleteCall
  | start id =>
    match c.deleteRow id with
    | (c, .ok ()) => (c, removed id)
    | (c, .error e) => (c, finished (.error e))
  | removed id =>
    let (c, result) := c.publish ⟨.deleted, id⟩
    let c := match result with
      | .ok () => c
      | .error e =>
        c.tell .warn "failed to publish deletion event; product stays deleted"
          [("product_id", id.text), ("error", e.publishMessage)]
    ({ c with deleted := c.deleted + 1 }.tell .info "product deleted" [("product_id", id.text)],
      finished (.ok ()))
  | finished result => (c, finished result)

/-- The result of a call that has ended. -/
def result? : DeleteCall → Option (Except CatalogError Unit)
  | finished result => some result
  | _ => none

end DeleteCall

/-- Deletes a product without a disturbance. -/
def Catalog.delete (c : Catalog) (id : ProductId) : Catalog × Except CatalogError Unit :=
  let (c, call) := DeleteCall.step c (.start id)
  match DeleteCall.step c call with
  | (c, .finished result) => (c, result)
  | (c, _) => (c, .error (.internal "unfinished"))

end ProductCatalog
