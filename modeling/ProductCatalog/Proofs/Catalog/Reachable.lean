import ProductCatalog.Proofs.Catalog.Interleaving
import ProductCatalog.Proofs.Store.Keys

/-!
# What can come about at a catalog

Besides going on as calls do, a workload can lose a call: nobody waits for
it any more, and its transaction is dropped.  Transactions of other users
may be open at the store from the beginning, and what is not the store may
change in any way, as it does when others receive from the queue.

Whatever comes about, rows and products that wait have keys and ids of their
own, and an id that has not been drawn is the id of none.

## Main results

* `CreateCall.Transition.reserves`, `DeleteCall.Transition.reserves` — one
  step of a call.
* `Workload.Reachable.apart`, `Workload.Leads.apart` — whatever comes about.
-/

namespace ProductCatalog

/-! ## Dropped calls and the products that wait -/

/-- The products that wait in the transaction of a creation. -/
def CreateCall.pending : CreateCall → List Product
  | begun _ tx | inserted _ tx | published _ tx | failing tx _ => tx.pending
  | start _ | retracting .. | finished _ => []

/-- The products that wait in the transaction of a call. -/
def Call.pending : Call → List Product
  | create call => call.pending
  | delete _ | list _ | listed _ => []

/-- Drops a call between two steps: an open transaction is dropped with it. -/
def Call.abandon (c : Catalog) : Call → Catalog
  | create call => call.abandon c
  | delete _ | list _ | listed _ => c

namespace Workload

/-- What can come about. -/
inductive Reachable : Workload → Prop
  /-- No call has come yet, and the store is what any transactions have left of it. -/
  | start {supply commands} {c : Catalog}
      (hstore : c.store = (Sessions.run { supply := supply } commands).store)
      (hsupply : c.supply = (Sessions.run { supply := supply } commands).supply) :
      Reachable ⟨c, []⟩
  | arrive {w} (h : Reachable w) (request : Request) :
      Reachable { w with calls := w.calls ++ [request.call] }
  | inject {w} (h : Reachable w) (i : Catalog.Injection) :
      Reachable { w with catalog := w.catalog.inject i }
  | step {w} (h : Reachable w) (i : Nat) : Reachable (w.step i)
  /-- Nobody waits for a call any more. -/
  | abandon {w i call} (h : Reachable w) (hcall : w.calls[i]? = some call) :
      Reachable ⟨call.abandon w.catalog, w.calls.eraseIdx i⟩
  /-- Something happens beside the store. -/
  | beside {w} {c : Catalog} (h : Reachable w) (hstore : c.store = w.catalog.store)
      (hsupply : c.supply = w.catalog.supply) : Reachable { w with catalog := c }

/-- Everything that calls lead to at an empty catalog can come about. -/
theorem Leads.reachable {supply : Supply} {w : Workload} {attempts : List Attempt}
    (h : Leads ⟨Catalog.empty supply, []⟩ w attempts) : w.Reachable := by
  induction h with
  | refl => exact @Reachable.start supply [] _ rfl rfl
  | arrive _ request ih => exact ih.arrive request
  | inject _ i ih => exact ih.inject i
  | step _ i ih => exact ih.step i

/-- The products that wait in the transactions of calls. -/
def waiting (w : Workload) : List Product := w.calls.flatMap Call.pending

end Workload

/-! ## One step -/

section Step

variable {c c' : Catalog} {attempts : List Attempt} {rest waiting : List Product}

/-- What a store reserves depends on its rows and its reservations only. -/
theorem Store.Reserves.of_ledger {s : Store} {supply : Supply} {ledger : Ledger}
    (h : s.Reserves waiting supply) (hledger : c.ledger = ledger) (hsupply : c.supply = supply)
    (hrows : ledger.rows = s.rows) (hreserved : ledger.reserved = s.reserved) :
    c.store.Reserves waiting c.supply := by
  have hrows' : c.store.rows = s.rows := (congrArg Ledger.rows hledger).trans hrows
  have hreserved' : c.store.reserved = s.reserved :=
    (congrArg Ledger.reserved hledger).trans hreserved
  constructor
  · rw [hreserved']
    exact h.reserved
  · rw [hrows']
    exact h.keys
  · rw [hrows']
    exact h.ids
  · rw [hrows', hsupply]
    exact h.drawn

/-- A step of a creation keeps all products apart, unless it draws an id again. -/
theorem CreateCall.Transition.reserves {call call' : CreateCall}
    (h : CreateCall.Transition c call c' call' attempts)
    (hr : c.store.Reserves (call.pending ++ rest) c.supply) (hd : c'.supply.Distinct) :
    c'.store.Reserves (call'.pending ++ rest) c'.supply := by
  cases h with
  | begun hl hs => exact hr.of_ledger hl hs rfl rfl
  | notBegun _ hl hs => exact hr.of_ledger hl hs rfl rfl
  | @inserted input tx _ product hp hfree hl hs =>
      subst hp
      have hnext : c.supply.next.Distinct := hs ▸ hd
      have hreserve := (hr.reserve hnext hfree).of_ledger hl hs rfl rfl
      refine hreserve.perm ?_
      show ((tx.pending ++ [_]) ++ rest).Perm _
      rw [List.append_assoc]
      exact List.perm_middle
  | notInserted _ hl hs => exact hr.of_ledger hl hs rfl rfl
  | announced hl hs => exact hr.of_ledger hl hs rfl rfl
  | notAnnounced _ hl hs => exact hr.of_ledger hl hs rfl rfl
  | @committed _ tx _ hl hs =>
      have hcommit : (Store.commit { c.store with faults := {} } tx).1.Reserves rest c.supply :=
        (hr.fail {}).commit
      exact hcommit.of_ledger hl hs rfl rfl
  | @notCommitted _ tx _ hl hs =>
      have hrelease : (c.store.release tx).Reserves rest c.supply := hr.release
      exact hrelease.of_ledger hl hs rfl rfl
  | @undone tx _ _ hl hs =>
      have hrelease : (c.store.release tx).Reserves rest c.supply := hr.release
      exact hrelease.of_ledger hl hs rfl rfl
  | retracted accepted hl hs => exact hr.of_ledger hl hs rfl rfl
  | rested => exact hr

/-- So does a step of a deletion. -/
theorem DeleteCall.Transition.reserves {call call' : DeleteCall}
    (h : DeleteCall.Transition c call c' call' attempts)
    (hr : c.store.Reserves waiting c.supply) : c'.store.Reserves waiting c'.supply := by
  cases h with
  | @removed id _ hrow hl hs => exact (hr.remove id).of_ledger hl hs rfl rfl
  | notRemoved hl hs => exact hr.of_ledger hl hs rfl rfl
  | announced accepted hl hs => exact hr.of_ledger hl hs rfl rfl
  | rested => exact hr

/-- A step of any call keeps all products apart, unless it draws an id again. -/
theorem Call.reserves_step {call : Call} (hr : c.store.Reserves (call.pending ++ rest) c.supply)
    (hd : (call.step c).1.supply.Distinct) :
    (call.step c).1.store.Reserves ((call.step c).2.pending ++ rest) (call.step c).1.supply := by
  cases call with
  | create call => exact (call.step_transition c).reserves hr hd
  | delete call => exact (call.step_transition c).reserves hr
  | list window =>
      obtain ⟨hl, hs⟩ := c.list_ledger window
      exact hr.of_ledger hl hs rfl rfl
  | listed result => exact hr

/-- The products of a call that is dropped wait no longer. -/
theorem Call.reserves_abandon {call : Call}
    (hr : c.store.Reserves (call.pending ++ rest) c.supply) :
    (call.abandon c).store.Reserves rest (call.abandon c).supply := by
  cases call with
  | create call =>
      cases call with
      | begun | inserted | published | failing => exact hr.release
      | start | retracting | finished => exact hr
  | delete | list | listed => exact hr

end Step

/-! ## Whatever comes about -/

namespace Workload

/--
The store keeps all products apart: its rows, those that wait in calls, and
those that wait in other transactions.
-/
def Apart (w : Workload) : Prop :=
  ∃ others, w.catalog.store.Reserves (w.waiting ++ others) w.catalog.supply

/-- The products that wait, with those of one call in front. -/
private theorem waiting_perm {c : Catalog} {calls others : List Call} {call : Call}
    (h : calls.Perm (call :: others)) :
    (Workload.mk c calls).waiting.Perm (call.pending ++ others.flatMap Call.pending) :=
  h.flatMap_right _

/-- Calls that have not begun wait with nothing. -/
private theorem waiting_requests (c : Catalog) (requests : List Request) :
    (Workload.mk c (requests.map Request.call)).waiting = [] := by
  rw [waiting, List.flatMap_eq_nil_iff]
  intro call hcall
  obtain ⟨request, -, rfl⟩ := List.mem_map.1 hcall
  cases request <;> rfl

namespace Apart

variable {w : Workload}

theorem arrive (h : w.Apart) (request : Request) :
    Apart { w with calls := w.calls ++ [request.call] } := by
  obtain ⟨others, hr⟩ := h
  have hwaiting : waiting { w with calls := w.calls ++ [request.call] } = w.waiting := by
    have hnone := waiting_requests w.catalog [request]
    rw [waiting] at hnone ⊢
    rw [List.flatMap_append]
    exact (congrArg (w.waiting ++ ·) hnone).trans (List.append_nil _)
  exact ⟨others, by rw [hwaiting]; exact hr⟩

theorem inject (h : w.Apart) (i : Catalog.Injection) :
    Apart { w with catalog := w.catalog.inject i } := by
  obtain ⟨others, hr⟩ := h
  exact ⟨others, hr.fail i.store⟩

/-- A step keeps all products apart, unless it draws an id again. -/
theorem step (h : w.Apart) (i : Nat) (hd : (w.step i).catalog.supply.Distinct) :
    (w.step i).Apart := by
  obtain ⟨others, hr⟩ := h
  refine ⟨others, ?_⟩
  cases hcall : w.calls[i]? with
  | none =>
      rw [(step_of_none hcall).1]
      exact hr
  | some call =>
      rw [(step_of_some hcall).1] at hd ⊢
      -- the calls that do not move keep what waits in them
      have hbefore := hr.perm ((waiting_perm (calls_perm hcall)).symm.append_right others)
      rw [List.append_assoc] at hbefore
      have hafter := Call.reserves_step hbefore hd
      rw [← List.append_assoc] at hafter
      exact hafter.perm ((waiting_perm (calls_set_perm hcall _)).append_right others)

theorem abandon (h : w.Apart) {i : Nat} {call : Call} (hcall : w.calls[i]? = some call) :
    Apart ⟨call.abandon w.catalog, w.calls.eraseIdx i⟩ := by
  obtain ⟨others, hr⟩ := h
  refine ⟨others, ?_⟩
  have hbefore := hr.perm ((waiting_perm (calls_perm hcall)).symm.append_right others)
  rw [List.append_assoc] at hbefore
  exact Call.reserves_abandon hbefore

/-- Calls may stop where they are for good, and others may come. -/
theorem restart (h : w.Apart) (requests : List Request) :
    Apart ⟨w.catalog, requests.map Request.call⟩ := by
  obtain ⟨others, hr⟩ := h
  refine ⟨w.waiting ++ others, ?_⟩
  rw [waiting_requests]
  exact hr

end Apart

/-- Dropping a call draws no id. -/
private theorem supply_abandon (c : Catalog) (call : Call) :
    (call.abandon c).supply = c.supply := by
  cases call with
  | create call => cases call <;> rfl
  | delete | list | listed => rfl

/-- Whatever comes about, the store keeps all products apart. -/
theorem Reachable.apart {w : Workload} (h : w.Reachable) (hd : w.catalog.supply.Distinct) :
    w.Apart := by
  induction h with
  | @start supply commands c hstore hsupply =>
      rw [hsupply] at hd
      have hregular := (Sessions.Regular.empty supply).run commands hd
      refine ⟨(Sessions.run { supply := supply } commands).waiting, ?_⟩
      show c.store.Reserves _ c.supply
      rw [hstore, hsupply]
      exact hregular.reserves
  | arrive _ request ih => exact (ih hd).arrive request
  | inject _ i ih => exact (ih hd).inject i
  | step _ i ih => exact (ih (distinct_of_step hd)).step i hd
  | @abandon w i call _ hcall ih =>
      exact (ih (supply_abandon w.catalog call ▸ hd)).abandon hcall
  | @beside w c _ hstore hsupply ih =>
      obtain ⟨others, hr⟩ := ih (hsupply ▸ hd)
      refine ⟨others, ?_⟩
      show c.store.Reserves _ c.supply
      rw [hstore, hsupply]
      exact hr

/-- So it is for all that a workload leads to. -/
theorem Leads.apart {w₀ w : Workload} {attempts : List Attempt} (h : Leads w₀ w attempts)
    (h₀ : w₀.Apart) (hd : w.catalog.supply.Distinct) : w.Apart := by
  induction h with
  | refl => exact h₀
  | arrive _ request ih => exact (ih hd).arrive request
  | inject _ i ih => exact (ih hd).inject i
  | step _ i ih => exact (ih (distinct_of_step hd)).step i hd

end Workload

end ProductCatalog
