import Mathlib.Data.List.Perm.Basic
import ProductCatalog.Proofs.Catalog.Ledger

/-!
# Every interleaving of calls

A workload goes on in three ways: a new call arrives, numbers of faults are
set, or one of the calls makes its next step.  No call is ever dropped.
`Workload.Leads` collects everything that can come of this, together with
the attempts to send that the steps have made.

## Main results

* `Workload.leads_run` — a schedule is a special case.
* `Workload.supply_step` — a step draws at most one id.
* `Workload.Leads.events_eq` — what has been sent is what was accepted.
* `Call.trace_step`, `Workload.Leads.sends_eq` — every attempt has its mark in
  the trace.
* `calls_perm`, `calls_set_perm` — a step replaces one call and no other.
-/

namespace ProductCatalog

/-- What can be asked of a catalog. -/
inductive Request
  | create (input : NewProduct)
  | delete (id : ProductId)
  | list (window : Pagination)

/-- The call that a request begins. -/
def Request.call : Request → Call
  | create input => .create (.start input)
  | delete id => .delete (.start id)
  | list window => .list window

namespace Workload

/-- The attempts to send that the next step of a call makes. -/
def attempts (w : Workload) (i : Nat) : List Attempt :=
  match w.calls[i]? with
  | some call => call.attempts w.catalog
  | none => []

/-- What a workload can lead to, with the attempts made on the way. -/
inductive Leads (w₀ : Workload) : Workload → List Attempt → Prop
  | refl : Leads w₀ w₀ []
  | arrive {w attempts} (h : Leads w₀ w attempts) (request : Request) :
      Leads w₀ { w with calls := w.calls ++ [request.call] } attempts
  | inject {w attempts} (h : Leads w₀ w attempts) (i : Catalog.Injection) :
      Leads w₀ { w with catalog := w.catalog.inject i } attempts
  | step {w attempts} (h : Leads w₀ w attempts) (i : Nat) :
      Leads w₀ (w.step i) (attempts ++ w.attempts i)

/-- Running a schedule is one way to go on. -/
theorem leads_run {w₀ w : Workload} {attempts : List Attempt} (h : Leads w₀ w attempts)
    (schedule : List Nat) : ∃ more, Leads w₀ (w.run schedule) (attempts ++ more) := by
  induction schedule generalizing w attempts with
  | nil => exact ⟨[], by rwa [List.append_nil]⟩
  | cons i rest ih =>
      obtain ⟨more, hmore⟩ := ih (h.step i)
      exact ⟨w.attempts i ++ more, by rwa [← List.append_assoc]⟩

/-! ## A step replaces one call -/

/-- A step of no call changes nothing. -/
theorem step_of_none {w : Workload} {i : Nat} (h : w.calls[i]? = none) :
    w.step i = w ∧ w.attempts i = [] := by
  rw [step, attempts, h]
  exact ⟨rfl, rfl⟩

/-- A step of a call changes the catalog as the call says and replaces the call. -/
theorem step_of_some {w : Workload} {i : Nat} {call : Call} (h : w.calls[i]? = some call) :
    w.step i = ⟨(call.step w.catalog).1, w.calls.set i (call.step w.catalog).2⟩ ∧
      w.attempts i = call.attempts w.catalog := by
  rw [step, attempts, h]
  exact ⟨rfl, rfl⟩

theorem calls_perm {calls : List Call} {i : Nat} {call : Call} (h : calls[i]? = some call) :
    calls.Perm (call :: calls.eraseIdx i) := by
  obtain ⟨hi, rfl⟩ := List.getElem?_eq_some_iff.1 h
  exact (List.getElem_cons_eraseIdx_perm hi).symm

theorem calls_set_perm {calls : List Call} {i : Nat} {call : Call} (h : calls[i]? = some call)
    (next : Call) : (calls.set i next).Perm (next :: calls.eraseIdx i) := by
  obtain ⟨hi, -⟩ := List.getElem?_eq_some_iff.1 h
  exact List.set_perm_cons_eraseIdx hi next

end Workload

/-! ## Supply and events -/

/-- A step of a creation draws at most one id. -/
theorem CreateCall.Transition.supply_cases {c c' : Catalog} {call call' : CreateCall}
    {attempts : List Attempt} (h : CreateCall.Transition c call c' call' attempts) :
    c'.supply = c.supply ∨ c'.supply = c.supply.next := by
  cases h with
  | inserted _ _ _ hs => exact .inr hs
  | rested => exact .inl rfl
  | _ => exact .inl (by assumption)

theorem CreateCall.Transition.events_eq {c c' : Catalog} {call call' : CreateCall}
    {attempts : List Attempt} (h : CreateCall.Transition c call c' call' attempts) :
    c'.ledger.events = c.ledger.events ++ accepted attempts := by
  cases h with
  | retracted accepted hl => cases accepted <;> simp [hl, Ledger.send, accepted]
  | _ => simp_all [Ledger.send, Ledger.reserve, Ledger.release, accepted]

theorem DeleteCall.Transition.supply_eq {c c' : Catalog} {call call' : DeleteCall}
    {attempts : List Attempt} (h : DeleteCall.Transition c call c' call' attempts) :
    c'.supply = c.supply := by
  cases h with
  | rested => rfl
  | _ => assumption

theorem DeleteCall.Transition.events_eq {c c' : Catalog} {call call' : DeleteCall}
    {attempts : List Attempt} (h : DeleteCall.Transition c call c' call' attempts) :
    c'.ledger.events = c.ledger.events ++ accepted attempts := by
  cases h with
  | announced accepted hl => cases accepted <;> simp [hl, Ledger.send, accepted]
  | _ => simp_all [accepted]

/-- A step of any call draws at most one id. -/
theorem Call.supply_step (c : Catalog) (call : Call) :
    (call.step c).1.supply = c.supply ∨ (call.step c).1.supply = c.supply.next := by
  cases call with
  | create call => exact (call.step_transition c).supply_cases
  | delete call => exact .inl (call.step_transition c).supply_eq
  | list window => exact .inl (c.list_ledger window).2
  | listed result => exact .inl rfl

/-- A step sends what it attempts with success. -/
theorem Call.events_step (c : Catalog) (call : Call) :
    (call.step c).1.events = c.events ++ accepted (call.attempts c) := by
  cases call with
  | create call => exact (call.step_transition c).events_eq
  | delete call => exact (call.step_transition c).events_eq
  | list window =>
      have hl := congrArg Ledger.events (c.list_ledger window).1
      exact hl.trans (List.append_nil _).symm
  | listed result => exact (List.append_nil _).symm

/-! ## The trace -/

/-- The call that the next step of a deletion makes. -/
def DeleteCall.next? : DeleteCall → Option CallKind
  | start _ => some .delete
  | removed _ => some .send
  | finished _ => none

/-- The call to the store or the queue that the next step of any call makes. -/
def Call.next? : Call → Option CallKind
  | create call => call.next?
  | delete call => call.next?
  | list _ => some .list
  | listed _ => none

theorem CreateCall.trace_step (c : Catalog) (call : CreateCall) :
    (call.step c).1.trace = c.trace ++ call.next?.toList := by
  cases call with
  | start input =>
      rw [step, next?, Option.toList_some, ← c.trace_begin]
      split <;> rename_i h <;> rw [h]
  | begun input tx =>
      rw [step, next?, Option.toList_some, ← c.trace_insert tx input]
      split <;> rename_i h <;> rw [h]
  | inserted product tx =>
      rw [step, next?, Option.toList_some, ← c.trace_publish ⟨.created, product.id⟩]
      split <;> rename_i h <;> rw [h]
      rfl
  | published product tx =>
      rw [step, next?, Option.toList_some, ← c.trace_commit tx]
      split <;> rename_i h <;> rw [h] <;> rfl
  | failing tx e => exact c.trace_undo tx
  | retracting product e =>
      rw [step, next?, Option.toList_some, ← c.trace_publish ⟨.deleted, product.id⟩]
      split <;> rename_i h <;> rw [h] <;> rfl
  | finished result => exact (List.append_nil _).symm

theorem DeleteCall.trace_step (c : Catalog) (call : DeleteCall) :
    (call.step c).1.trace = c.trace ++ call.next?.toList := by
  cases call with
  | start id =>
      rw [step, next?, Option.toList_some, ← c.trace_deleteRow id]
      split <;> rename_i h <;> rw [h]
  | removed id =>
      rw [step, next?, Option.toList_some, ← c.trace_publish ⟨.deleted, id⟩]
      obtain ⟨c', result⟩ := c.publish ⟨.deleted, id⟩
      cases result <;> rfl
  | finished result => exact (List.append_nil _).symm

/-- A step leaves the mark of the one call that it makes. -/
theorem Call.trace_step (c : Catalog) (call : Call) :
    (call.step c).1.trace = c.trace ++ call.next?.toList := by
  cases call with
  | create call => exact call.trace_step c
  | delete call => exact call.trace_step c
  | list window => exact c.trace_list window
  | listed result => exact (List.append_nil _).symm

/-- A step attempts to send if the call that it makes is a send. -/
theorem Call.length_attempts (c : Catalog) (call : Call) :
    (call.attempts c).length = call.next?.toList.count .send := by
  cases call with
  | create call => cases call <;> rfl
  | delete call => cases call <;> rfl
  | list | listed => rfl

namespace Workload

/-- A step of a workload draws at most one id. -/
theorem supply_step (w : Workload) (i : Nat) :
    (w.step i).catalog.supply = w.catalog.supply ∨
      (w.step i).catalog.supply = w.catalog.supply.next := by
  cases hcall : w.calls[i]? with
  | none =>
      rw [(step_of_none hcall).1]
      exact .inl rfl
  | some call =>
      rw [(step_of_some hcall).1]
      exact call.supply_step w.catalog

/-- A step of a workload sends what it attempts with success. -/
theorem events_step (w : Workload) (i : Nat) :
    (w.step i).catalog.events = w.catalog.events ++ accepted (w.attempts i) := by
  cases hcall : w.calls[i]? with
  | none =>
      rw [(step_of_none hcall).1, (step_of_none hcall).2]
      exact (List.append_nil _).symm
  | some call =>
      rw [(step_of_some hcall).1, (step_of_some hcall).2]
      exact call.events_step w.catalog

/-- A step of a workload leaves the mark of a send for every attempt. -/
theorem trace_step (w : Workload) (i : Nat) :
    ∃ marks, (w.step i).catalog.trace = w.catalog.trace ++ marks ∧
      marks.count .send = (w.attempts i).length := by
  cases hcall : w.calls[i]? with
  | none =>
      rw [(step_of_none hcall).1, (step_of_none hcall).2]
      exact ⟨[], (List.append_nil _).symm, rfl⟩
  | some call =>
      rw [(step_of_some hcall).1, (step_of_some hcall).2]
      exact ⟨_, call.trace_step w.catalog, (call.length_attempts w.catalog).symm⟩

/-- If no id has been drawn twice after a step, none had been before. -/
theorem distinct_of_step {w : Workload} {i : Nat}
    (hd : (w.step i).catalog.supply.Distinct) : w.catalog.supply.Distinct := by
  rcases w.supply_step i with hs | hs
  · exact hs ▸ hd
  · rw [hs] at hd
    exact hd.of_next

/-- Nor had any before a whole schedule. -/
theorem distinct_of_run {w : Workload} (schedule : List Nat)
    (hd : (w.run schedule).catalog.supply.Distinct) : w.catalog.supply.Distinct := by
  induction schedule generalizing w with
  | nil => exact hd
  | cons i rest ih => exact distinct_of_step (ih hd)

/-- Nor had any before everything that a workload leads to. -/
theorem Leads.distinct {w₀ w : Workload} {attempts : List Attempt} (h : Leads w₀ w attempts)
    (hd : w.catalog.supply.Distinct) : w₀.catalog.supply.Distinct := by
  induction h with
  | refl => exact hd
  | arrive _ _ ih => exact ih hd
  | inject _ _ ih => exact ih hd
  | step _ _ ih => exact ih (distinct_of_step hd)

/-- What has been sent is what was sent before and every attempt that the queue has taken. -/
theorem Leads.events_eq {w₀ w : Workload} {attempts : List Attempt} (h : Leads w₀ w attempts) :
    w.catalog.events = w₀.catalog.events ++ accepted attempts := by
  induction h with
  | refl => exact (List.append_nil _).symm
  | arrive _ _ ih => exact ih
  | inject _ _ ih => exact ih
  | step _ i ih => rw [events_step, accepted_append, ← List.append_assoc, ih]

/-- Every attempt has left the mark of a send, and nothing else has. -/
theorem Leads.sends_eq {w₀ w : Workload} {attempts : List Attempt} (h : Leads w₀ w attempts) :
    w.catalog.trace.count .send = w₀.catalog.trace.count .send + attempts.length := by
  induction h with
  | refl => rfl
  | arrive _ _ ih => exact ih
  | inject _ _ ih => exact ih
  | @step w _ _ i ih =>
      obtain ⟨marks, htrace, hsends⟩ := w.trace_step i
      rw [htrace, List.count_append, hsends, ih, List.length_append, Nat.add_assoc]

end Workload

end ProductCatalog
