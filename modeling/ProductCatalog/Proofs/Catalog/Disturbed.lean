import ProductCatalog.Proofs.Catalog.Creation
import ProductCatalog.Proofs.Catalog.Reachable

/-!
# Operations under faults

A plan says which faults are set before each step of an operation, so that
any of its steps can be made to fail whatever those before it have done.
Under a plan that sets none, operations are what they are undisturbed.

## Main results

* `createUnder_none`, `deleteUnder_none`, `listUnder_none` — without faults.
* `createUnder_cases`, `deleteUnder_cases`, `listUnder_ledger` — what an
  operation gives and leaves behind.
-/

namespace ProductCatalog.Catalog

/-- Which faults are set before each step of an operation. -/
abbrev Plan := Nat → Option Injection

/-- Sets the faults of a plan that come before a step. -/
def prepare (c : Catalog) (plan : Plan) (step : Nat) : Catalog :=
  match plan step with
  | some i => c.inject i
  | none => c

/-- What the steps of a call give if it has not ended after them. -/
def unfinished {α : Type} : Except CatalogError α := .error (.internal "unfinished")

/-- Creates a product under a plan. -/
def createUnder (plan : Plan) (c : Catalog) (input : NewProduct) :
    Catalog × Except CatalogError Product :=
  let run := (Creation.start c input).under plan 5
  (run.catalog, run.call.result?.getD unfinished)

/-- Deletes a product under a plan. -/
def deleteUnder (plan : Plan) (c : Catalog) (id : ProductId) :
    Catalog × Except CatalogError Unit :=
  let (c, call) := DeleteCall.step (c.prepare plan 0) (.start id)
  let (c, call) := call.step (c.prepare plan 1)
  (c, call.result?.getD unfinished)

/-- Lists products under a plan. -/
def listUnder (plan : Plan) (c : Catalog) (window : Pagination) :
    Catalog × Except CatalogError ProductPage :=
  (c.prepare plan 0).list window

/-! ## Without faults -/

theorem createUnder_none (c : Catalog) (input : NewProduct) :
    c.createUnder (fun _ => none) input = c.create input := by
  obtain ⟨hcall, hcatalog⟩ := c.create_eq input
  rw [createUnder, hcall, hcatalog]
  rfl

/-- The first step of a deletion removes the row, or ends the deletion. -/
theorem deletion_first (c : Catalog) (id : ProductId) :
    (∃ c', DeleteCall.step c (.start id) = (c', .removed id) ∧ (∃ p ∈ c.ledger.rows, p.id = id) ∧
        c'.ledger = { c.ledger with rows := c.ledger.rows.filter fun p => p.id != id }) ∨
      ∃ c' e, DeleteCall.step c (.start id) = (c', .finished (.error e)) ∧
        c'.ledger = c.ledger := by
  have hstep := (DeleteCall.start id).step_transition c
  revert hstep
  generalize DeleteCall.step c (.start id) = next
  obtain ⟨c', call'⟩ := next
  intro hstep
  cases hstep with
  | removed hrow hl => exact .inl ⟨c', rfl, hrow, hl⟩
  | notRemoved hl => exact .inr ⟨c', _, rfl, hl⟩

/-- The second step counts the deletion, whether or not it can be sent. -/
theorem deletion_second (c : Catalog) (id : ProductId) :
    ∃ c' sent, DeleteCall.step c (.removed id) = (c', .finished (.ok ())) ∧
      (sent = [] ∨ sent = [⟨.deleted, id⟩]) ∧
      c'.ledger = { c.ledger.send sent with deleted := c.ledger.deleted + 1 } := by
  have hstep := (DeleteCall.removed id).step_transition c
  revert hstep
  generalize (Call.delete (.removed id)).attempts c = attempts
  generalize DeleteCall.step c (.removed id) = next
  obtain ⟨c', call'⟩ := next
  intro hstep
  cases hstep with
  | announced accepted hl => exact ⟨c', _, rfl, by cases accepted <;> simp, hl⟩

theorem deleteUnder_none (c : Catalog) (id : ProductId) :
    c.deleteUnder (fun _ => none) id = c.delete id := by
  rw [deleteUnder, delete]
  simp only [prepare]
  rcases c.deletion_first id with ⟨c', hfirst, -, -⟩ | ⟨c', e, hfirst, -⟩
  · obtain ⟨after, -, hsecond, -, -⟩ := c'.deletion_second id
    simp only [hfirst, hsecond]
    rfl
  · rw [hfirst]
    rfl

theorem listUnder_none (c : Catalog) (window : Pagination) :
    c.listUnder (fun _ => none) window = c.list window := rfl

/-! ## What operations leave behind -/

theorem prepare_ledger (c : Catalog) (plan : Plan) (step : Nat) :
    (c.prepare plan step).ledger = c.ledger := by
  unfold prepare
  split <;> rfl

/-- A creation gives the product that it has added, or a failure. -/
theorem createUnder_cases (plan : Plan) (c : Catalog) (input : NewProduct) :
    ∃ result, (c.createUnder plan input).2 = result ∧
      Creation.Ended c input ((Creation.start c input).under plan 5) result := by
  obtain ⟨result, hresult⟩ := (Creation.course_under c input plan 5).finished
  refine ⟨result, ?_, (Creation.course_under c input plan 5).ended hresult⟩
  rw [createUnder, hresult]
  rfl

/--
A deletion removes the row of its id, and sends its event or fails to; or it
fails, and leaves nothing behind.
-/
theorem deleteUnder_cases (plan : Plan) (c : Catalog) (id : ProductId) :
    (∃ after sent, c.deleteUnder plan id = (after, .ok ()) ∧ (∃ p ∈ c.ledger.rows, p.id = id) ∧
        (sent = [] ∨ sent = [⟨.deleted, id⟩]) ∧
        after.ledger = { c.ledger.send sent with
          rows := c.ledger.rows.filter fun p => p.id != id
          deleted := c.ledger.deleted + 1 }) ∨
      ∃ after e, c.deleteUnder plan id = (after, .error e) ∧ after.ledger = c.ledger := by
  have hbefore := c.prepare_ledger plan 0
  rw [deleteUnder]
  rcases (c.prepare plan 0).deletion_first id with ⟨c', hfirst, hrow, hl⟩ | ⟨c', e, hfirst, hl⟩
  · obtain ⟨after, sent, hsecond, hsent, hl'⟩ := (c'.prepare plan 1).deletion_second id
    rw [hbefore] at hrow hl
    rw [c'.prepare_ledger plan 1, hl] at hl'
    simp only [hfirst, hsecond]
    exact .inl ⟨after, sent, rfl, hrow, hsent, hl'⟩
  · rw [hfirst]
    exact .inr ⟨_, e, rfl, (c'.prepare_ledger plan 1).trans (hl.trans hbefore)⟩

/-- A listing leaves nothing behind. -/
theorem listUnder_ledger (plan : Plan) (c : Catalog) (window : Pagination) :
    (c.listUnder plan window).1.ledger = c.ledger :=
  ((c.prepare plan 0).list_ledger window).1.trans (c.prepare_ledger plan 0)

end ProductCatalog.Catalog
