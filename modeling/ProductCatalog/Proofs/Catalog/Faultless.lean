import ProductCatalog.Proofs.Catalog.Interleaving

/-!
# Calls when nothing fails

If no fault is set, a creation goes straight to its end unless its key is
taken, and a deletion unless there is no row.  `Request.Tracks` says how far
the call of a request can have come, with the attempts to send that it has
made, and `Request.Advance` what its next step does.

## Main results

* `Request.Tracks.step` — every step advances a call that is on its track.
* `Request.Tracks.advance` — and leaves it on its track.
-/

namespace ProductCatalog

/-! ## Operations that do not fail -/

/-- No operation has been told to fail. -/
structure Catalog.Faultless (c : Catalog) : Prop where
  calls : c.faults = {}
  store : c.store.faults = {}
  queue : c.queue.faults = {}

namespace Catalog.Faultless

variable {c : Catalog}

/-- Faults that are set anew may be none. -/
theorem of_inject (c : Catalog) : (c.inject {}).Faultless := ⟨rfl, rfl, rfl⟩

theorem begin (h : c.Faultless) : c.begin.2 = .ok {} ∧ c.begin.1.Faultless := by
  have hnone : c.faults.begins = 0 := congrArg Catalog.Faults.begins h.calls
  unfold Catalog.begin mark
  simp only [hnone, true_and]
  exact ⟨h.calls, h.store, h.queue⟩

/-- An insert fails only if its key is taken. -/
theorem insert (h : c.Faultless) (tx : Transaction) (input : NewProduct) :
    ((c.insert tx input).2.2.isOk = !c.ledger.keyTaken input.key ∧
      ∀ e, (c.insert tx input).2.2 = .error e → e = .duplicateProduct) ∧
      (c.insert tx input).1.Faultless := by
  unfold Catalog.insert Store.insertFrom mark
  rcases c.store.insert_cases tx input c.supply.id c.supply.now with
    ⟨hfault, -⟩ | ⟨-, htaken, hinsert⟩ | ⟨-, hfree, hinsert⟩
  · exact absurd (congrArg Store.Faults.inserts h.store) hfault
  · have htaken' : c.ledger.keyTaken input.key = true := htaken
    simp only [hinsert, htaken']
    exact ⟨⟨rfl, fun _ he => (Except.error.inj he).symm⟩, h.calls, h.store, h.queue⟩
  · have hfree' : c.ledger.keyTaken input.key = false := hfree
    simp only [hinsert, hfree']
    exact ⟨⟨rfl, nofun⟩, h.calls, h.store, h.queue⟩

theorem publish (h : c.Faultless) (event : LifecycleEvent) :
    (c.publish event).2 = .ok () ∧ (c.publish event).1.Faultless := by
  have hnone : c.queue.faults.sends = 0 := congrArg Queue.Faults.sends h.queue
  unfold Catalog.publish Queue.send mark
  simp only [hnone, true_and]
  exact ⟨h.calls, h.store, h.queue⟩

theorem commit (h : c.Faultless) (tx : Transaction) :
    (c.commit tx).2 = .ok () ∧ (c.commit tx).1.Faultless := by
  have hnone : c.store.faults.commits = 0 := congrArg Store.Faults.commits h.store
  unfold Catalog.commit Store.commit mark
  simp only [hnone, true_and]
  exact ⟨h.calls, h.store, h.queue⟩

theorem undo (h : c.Faultless) (tx : Transaction) : (c.undo tx).Faultless := by
  have hnone : c.faults.rollbacks = 0 := congrArg Catalog.Faults.rollbacks h.calls
  unfold Catalog.undo rollback dropTransaction mark
  simp only [hnone]
  exact ⟨h.calls, h.store, h.queue⟩

/-- A deletion fails only if there is no row. -/
theorem deleteRow (h : c.Faultless) (id : ProductId) :
    (∀ e, (c.deleteRow id).2 = .error e → e = .noSuchProduct ∧ ∀ p ∈ c.ledger.rows, p.id ≠ id) ∧
      (c.deleteRow id).1.Faultless := by
  have hnone : c.faults.deletes = 0 := congrArg Catalog.Faults.deletes h.calls
  unfold Catalog.deleteRow Store.delete mark
  simp only [hnone]
  by_cases hlen : (c.store.rows.filter fun p => p.id != id).length = c.store.rows.length
  · simp only [if_pos hlen]
    refine ⟨?_, h.calls, h.store, h.queue⟩
    intro e he
    have hall := List.length_filter_eq_length_iff.1 hlen
    exact ⟨(Except.error.inj he).symm, fun p hp => by simpa using hall p hp⟩
  · simp only [if_neg hlen]
    exact ⟨nofun, h.calls, h.store, h.queue⟩

theorem list (h : c.Faultless) (window : Pagination) : (c.list window).1.Faultless := by
  have hnone : c.faults.lists = 0 := congrArg Catalog.Faults.lists h.calls
  unfold Catalog.list mark
  simp only [hnone]
  exact ⟨h.calls, h.store, h.queue⟩

end Catalog.Faultless

/-! ## How far a call has come -/

/-- Whether a call has ended. -/
def Call.ended : Call → Bool
  | create call => call.result?.isSome
  | delete call => call.result?.isSome
  | list _ => false
  | listed _ => true

namespace Request

/-- How far the call of a request can have come, and the attempts that it has made. -/
inductive Tracks : Request → Call → List Attempt → Prop
  | starting {input} : Tracks (.create input) (.create (.start input)) []
  | begun {input} : Tracks (.create input) (.create (.begun input {})) []
  | inserted {input product} (hkey : product.key = input.key) :
      Tracks (.create input) (.create (.inserted product ⟨[product]⟩)) []
  | published {input product} (hkey : product.key = input.key) :
      Tracks (.create input) (.create (.published product ⟨[product]⟩))
        [⟨⟨.created, product.id⟩, true⟩]
  | created {input product} (hkey : product.key = input.key) :
      Tracks (.create input) (.create (.finished (.ok product)))
        [⟨⟨.created, product.id⟩, true⟩]
  | failing {input} : Tracks (.create input) (.create (.failing {} .duplicateProduct)) []
  | duplicate {input} : Tracks (.create input) (.create (.finished (.error .duplicateProduct))) []
  | deleting {id} : Tracks (.delete id) (.delete (.start id)) []
  | removed {id} : Tracks (.delete id) (.delete (.removed id)) []
  | deleted {id} : Tracks (.delete id) (.delete (.finished (.ok ()))) [⟨⟨.deleted, id⟩, true⟩]
  | missing {id} : Tracks (.delete id) (.delete (.finished (.error .noSuchProduct))) []
  | listing {window} : Tracks (.list window) (.list window) []
  | listed {window result} : Tracks (.list window) (.listed result) []

/-- A call that has not begun is on its track. -/
theorem Tracks.of_request (request : Request) : request.Tracks request.call [] := by
  cases request with
  | create input => exact .starting
  | delete id => exact .deleting
  | list window => exact .listing

/-- What the next step of a call that is on its track does. -/
inductive Advance (c c' : Catalog) : Request → Call → Call → List Attempt → Prop
  | begin {input} (hl : c'.ledger = c.ledger) (hs : c'.supply = c.supply) :
      Advance c c' (.create input) (.create (.start input)) (.create (.begun input {})) []
  | insert {input product} (hkey : product.key = input.key) (hid : product.id = c.supply.id)
      (hfree : c.ledger.keyTaken input.key = false)
      (hl : c'.ledger = c.ledger.reserve input.key) (hs : c'.supply = c.supply.next) :
      Advance c c' (.create input) (.create (.begun input {}))
        (.create (.inserted product ⟨[product]⟩)) []
  | refuse {input} (htaken : c.ledger.keyTaken input.key = true) (hl : c'.ledger = c.ledger)
      (hs : c'.supply = c.supply) :
      Advance c c' (.create input) (.create (.begun input {}))
        (.create (.failing {} .duplicateProduct)) []
  | announce {input product} (hl : c'.ledger = c.ledger.send [⟨.created, product.id⟩])
      (hs : c'.supply = c.supply) :
      Advance c c' (.create input) (.create (.inserted product ⟨[product]⟩))
        (.create (.published product ⟨[product]⟩)) [⟨⟨.created, product.id⟩, true⟩]
  | commit {input product} (hkey : product.key = input.key)
      (hl : c'.ledger = { c.ledger.release [product.key] with
        rows := c.ledger.rows ++ [product], created := c.ledger.created + 1 })
      (hs : c'.supply = c.supply) :
      Advance c c' (.create input) (.create (.published product ⟨[product]⟩))
        (.create (.finished (.ok product))) []
  | undo {input} (hl : c'.ledger = c.ledger) (hs : c'.supply = c.supply) :
      Advance c c' (.create input) (.create (.failing {} .duplicateProduct))
        (.create (.finished (.error .duplicateProduct))) []
  | remove {id} (hrow : ∃ p ∈ c.ledger.rows, p.id = id)
      (hl : c'.ledger = { c.ledger with rows := c.ledger.rows.filter fun p => p.id != id })
      (hs : c'.supply = c.supply) :
      Advance c c' (.delete id) (.delete (.start id)) (.delete (.removed id)) []
  | miss {id} (hnone : ∀ p ∈ c.ledger.rows, p.id ≠ id) (hl : c'.ledger = c.ledger)
      (hs : c'.supply = c.supply) :
      Advance c c' (.delete id) (.delete (.start id))
        (.delete (.finished (.error .noSuchProduct))) []
  | finish {id} (hl : c'.ledger = { c.ledger.send [⟨.deleted, id⟩] with
        deleted := c.ledger.deleted + 1 }) (hs : c'.supply = c.supply) :
      Advance c c' (.delete id) (.delete (.removed id)) (.delete (.finished (.ok ())))
        [⟨⟨.deleted, id⟩, true⟩]
  | list {window result} (hl : c'.ledger = c.ledger) (hs : c'.supply = c.supply) :
      Advance c c' (.list window) (.list window) (.listed result) []
  | rest {request call} (hended : call.ended = true) (hl : c'.ledger = c.ledger)
      (hs : c'.supply = c.supply) : Advance c c' request call call []

/-- A step leaves a call on its track. -/
theorem Tracks.advance {request : Request} {call call' : Call} {done more : List Attempt}
    {c c' : Catalog} (h : request.Tracks call done) (ha : Advance c c' request call call' more) :
    request.Tracks call' (done ++ more) := by
  cases ha with
  | rest => rwa [List.append_nil]
  | begin => cases h; exact .begun
  | insert hkey => cases h; exact .inserted hkey
  | refuse => cases h; exact .failing
  | announce => cases h with | inserted hkey => exact .published hkey
  | commit hkey => cases h; exact .created hkey
  | undo => cases h; exact .duplicate
  | remove => cases h; exact .removed
  | miss => cases h; exact .missing
  | finish => cases h; exact .deleted
  | list => cases h; exact .listed

/-- Every step advances a call that is on its track, as long as nothing fails. -/
theorem Tracks.step {request : Request} {call : Call} {done : List Attempt} {c : Catalog}
    (h : request.Tracks call done) (hc : c.Faultless) :
    Advance c (call.step c).1 request call (call.step c).2 (call.attempts c) ∧
      (call.step c).1.Faultless := by
  cases h with
  | @starting input =>
      obtain ⟨hok, hfaultless⟩ := hc.begin
      rcases c.begin_cases with ⟨c', hbegin, hl, hs⟩ | ⟨c', e, hbegin, -⟩
      · rw [hbegin] at hfaultless
        simp only [Call.step, CreateCall.step, hbegin]
        exact ⟨.begin hl hs, hfaultless⟩
      · rw [hbegin] at hok
        cases hok
  | @begun input =>
      obtain ⟨⟨hok, hreason⟩, hfaultless⟩ := hc.insert {} input
      rcases c.insert_cases {} input with ⟨c', hinsert, hfree, hl, hs⟩ | ⟨c', e, hinsert, -, hl, hs⟩
      · rw [hinsert] at hfaultless
        simp only [Call.step, CreateCall.step, hinsert]
        exact ⟨.insert rfl rfl hfree hl hs, hfaultless⟩
      · rw [hinsert] at hok hreason hfaultless
        obtain rfl := hreason e rfl
        have htaken : c.ledger.keyTaken input.key = true := by
          simpa [Except.isOk, Except.toBool] using hok
        simp only [Call.step, CreateCall.step, hinsert]
        exact ⟨.refuse htaken hl hs, hfaultless⟩
  | @inserted input product hkey =>
      obtain ⟨hok, hfaultless⟩ := hc.publish ⟨.created, product.id⟩
      rcases c.publish_cases ⟨.created, product.id⟩ with
        ⟨c', hpublish, hl, hs⟩ | ⟨c', hpublish, -⟩
      · rw [hpublish] at hfaultless
        rw [Call.attempts_of_publish rfl hpublish]
        simp only [Call.step, CreateCall.step, hpublish]
        exact ⟨.announce hl hs, hfaultless⟩
      · rw [hpublish] at hok
        cases hok
  | @published input product hkey =>
      obtain ⟨hok, hfaultless⟩ := hc.commit ⟨[product]⟩
      have hstep := (CreateCall.published product ⟨[product]⟩).step_transition c
      rcases c.commit_cases ⟨[product]⟩ with ⟨c', hcommit, -⟩ | ⟨c', hcommit, -⟩
      · rw [hcommit] at hfaultless
        simp only [Call.step, CreateCall.step, hcommit] at hstep ⊢
        cases hstep with
        | committed hl hs => exact ⟨.commit hkey hl hs, hfaultless.calls, hfaultless.store,
            hfaultless.queue⟩
      · rw [hcommit] at hok
        cases hok
  | @failing input =>
      obtain ⟨hl, hs⟩ := c.undo_ledger {}
      exact ⟨.undo (hl.trans (Ledger.release_nil _)) hs, hc.undo {}⟩
  | @deleting id =>
      obtain ⟨hreason, hfaultless⟩ := hc.deleteRow id
      rcases c.deleteRow_cases id with ⟨c', hdelete, hrow, hs, hl⟩ | ⟨c', e, hdelete, hl, hs⟩
      · rw [hdelete] at hfaultless
        simp only [Call.step, DeleteCall.step, hdelete]
        exact ⟨.remove hrow hl hs, hfaultless⟩
      · rw [hdelete] at hreason hfaultless
        obtain ⟨rfl, hnone⟩ := hreason e rfl
        simp only [Call.step, DeleteCall.step, hdelete]
        exact ⟨.miss hnone hl hs, hfaultless⟩
  | @removed id =>
      obtain ⟨hok, hfaultless⟩ := hc.publish ⟨.deleted, id⟩
      have hstep := (DeleteCall.removed id).step_transition c
      rcases c.publish_cases ⟨.deleted, id⟩ with ⟨c', hpublish, -⟩ | ⟨c', hpublish, -⟩
      · rw [hpublish] at hfaultless
        rw [Call.attempts_of_publish rfl hpublish] at hstep ⊢
        simp only [Call.step, DeleteCall.step, hpublish] at hstep ⊢
        cases hstep with
        | announced accepted hl hs => exact ⟨.finish hl hs, hfaultless.calls, hfaultless.store,
            hfaultless.queue⟩
      · rw [hpublish] at hok
        cases hok
  | listing =>
      obtain ⟨hl, hs⟩ := c.list_ledger _
      exact ⟨.list hl hs, hc.list _⟩
  | created | duplicate | deleted | missing | listed => exact ⟨.rest rfl rfl rfl, hc⟩

end Request

end ProductCatalog
