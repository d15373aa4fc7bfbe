import ProductCatalog.Proofs.Catalog.Contest
import ProductCatalog.Proofs.Catalog.Protocol

/-!
# Creations and deletions of the same product

Any number of creations and deletions may be started together.  However
their steps are interleaved, each call ends after a few steps of its own; of
the creations with one free key exactly one succeeds, and of the deletions of
one row as well.  The others leave nothing behind.

That the numbers come out right in the end does not depend on whether
anything fails: a row more has been counted as a creation, and a row less as
a deletion, once no deletion stands between its two steps.

## Main results

* `Workload.rank_run` — calls end after a few steps of their own.
* `Workload.Race.added_run` — the rows added are those of the creations that
  have succeeded.
* `Workload.Leads.balance_eq` — rows and counters.
* `Workload.duplicates_contend` — all of it for a family of calls.
-/

namespace ProductCatalog

/-! ## Every call ends -/

/-- How many steps a creation has before it at most. -/
def CreateCall.rank : CreateCall → Nat
  | start _ => 5
  | begun .. => 4
  | inserted .. => 3
  | published .. => 2
  | failing .. | retracting .. => 1
  | finished _ => 0

/-- How many steps a deletion has before it at most. -/
def DeleteCall.rank : DeleteCall → Nat
  | start _ => 2
  | removed _ => 1
  | finished _ => 0

/-- How many steps a call has before it at most. -/
def Call.rank : Call → Nat
  | create call => call.rank
  | delete call => call.rank
  | list _ => 1
  | listed _ => 0

theorem Call.ended_iff (call : Call) : call.ended = true ↔ call.rank = 0 := by
  cases call with
  | create call => cases call <;> simp [ended, rank, CreateCall.rank, CreateCall.result?]
  | delete call => cases call <;> simp [ended, rank, DeleteCall.rank, DeleteCall.result?]
  | list | listed => simp [ended, rank]

theorem Request.rank_call (request : Request) : request.call.rank ≤ 5 := by
  cases request <;> simp [call, Call.rank, CreateCall.rank, DeleteCall.rank]

theorem Call.rank_step (c : Catalog) (call : Call) : (call.step c).2.rank ≤ call.rank - 1 := by
  cases call with
  | create call =>
      have hstep := call.step_transition c
      show (call.step c).2.rank ≤ call.rank - 1
      revert hstep
      generalize (call.step c).2 = call'
      generalize (create call).attempts c = attempts
      intro hstep
      cases hstep <;> simp [CreateCall.rank]
  | delete call =>
      have hstep := call.step_transition c
      show (call.step c).2.rank ≤ call.rank - 1
      revert hstep
      generalize (call.step c).2 = call'
      intro hstep
      cases hstep <;> simp [DeleteCall.rank]
  | list window => exact Nat.le_refl 0
  | listed result => exact Nat.le_refl 0

namespace Workload

/-- A call after a schedule has come from the call in its place, by as many steps as the schedule
gives it. -/
theorem rank_run {w : Workload} (schedule : List Nat) {i : Nat} {call' : Call}
    (h : (w.run schedule).calls[i]? = some call') :
    ∃ call, w.calls[i]? = some call ∧ call'.rank ≤ call.rank - schedule.count i := by
  induction schedule generalizing w with
  | nil => exact ⟨call', h, Nat.le_refl _⟩
  | cons j rest ih =>
      obtain ⟨call₁, hcall₁, hrank⟩ := ih h
      cases hcall : w.calls[j]? with
      | none =>
          rw [(step_of_none hcall).1] at hcall₁
          have hji : j ≠ i := by
            rintro rfl
            rw [hcall] at hcall₁
            cases hcall₁
          exact ⟨call₁, hcall₁, by rwa [List.count_cons_of_ne hji]⟩
      | some call =>
          rw [(step_of_some hcall).1] at hcall₁
          by_cases hji : j = i
          · subst hji
            rw [List.getElem?_set_self (List.getElem?_eq_some_iff.1 hcall).1] at hcall₁
            obtain rfl := Option.some.inj hcall₁
            have hstep := call.rank_step w.catalog
            rw [List.count_cons_self]
            exact ⟨call, hcall, by omega⟩
          · rw [List.getElem?_set_ne hji] at hcall₁
            exact ⟨call₁, hcall₁, by rwa [List.count_cons_of_ne hji]⟩

/-- Five steps of its own are enough for every call. -/
theorem ended_run (c : Catalog) {family : List Request} {schedule : List Nat}
    (h : ∀ i < family.length, 5 ≤ schedule.count i) :
    ∀ call ∈ (run ⟨c, family.map Request.call⟩ schedule).calls, call.ended = true := by
  intro call hcall
  obtain ⟨i, hi⟩ := List.mem_iff_getElem?.1 hcall
  obtain ⟨call₀, hcall₀, hrank⟩ := rank_run schedule hi
  obtain ⟨hlength, rfl⟩ := List.getElem?_eq_some_iff.1 hcall₀
  simp only [List.length_map] at hlength
  have hturns := h i hlength
  rw [List.getElem_map] at hrank
  have hstart := (family[i]).rank_call
  rw [Call.ended_iff]
  omega

/-! ## Rows and creations that have succeeded -/

end Workload

/-- The product of a creation that has succeeded. -/
def Call.created? : Call → Option Product
  | create (.finished (.ok product)) => some product
  | create _ | delete _ | list _ | listed _ => none

theorem Request.created?_call (request : Request) : request.call.created? = none := by
  cases request <;> rfl

namespace Workload.Race

variable {family : List Request} {sent : Nat → List Attempt} {w : Workload}

/-- Without deletions the rows that are added are those of the creations that have succeeded. -/
theorem added_run (h : Race family sent w) (hno : ∀ id, .delete id ∉ family)
    {rows added : List Product} (hrows : w.catalog.ledger.rows = rows ++ added)
    (hadded : added.Perm (w.calls.filterMap Call.created?)) (schedule : List Nat) :
    ∃ added, (w.run schedule).catalog.ledger.rows = rows ++ added ∧
      added.Perm ((w.run schedule).calls.filterMap Call.created?) := by
  induction schedule generalizing sent w added with
  | nil => exact ⟨added, hrows, hadded⟩
  | cons i rest ih =>
      suffices hstep : ∃ added, (w.step i).catalog.ledger.rows = rows ++ added ∧
          added.Perm ((w.step i).calls.filterMap Call.created?) by
        obtain ⟨added', hrows', hadded'⟩ := hstep
        exact ih (h.step i) hrows' hadded'
      cases hcall : w.calls[i]? with
      | none =>
          rw [(step_of_none hcall).1]
          exact ⟨added, hrows, hadded⟩
      | some call =>
          obtain ⟨request, hrequest, -, hadvance, -⟩ := h.advance hcall
          have hbefore := hadded.trans ((calls_perm hcall).filterMap _)
          have hafter := (calls_set_perm hcall (call.step w.catalog).2).filterMap Call.created?
          rw [(step_of_some hcall).1]
          revert hadvance hafter
          generalize call.step w.catalog = next
          obtain ⟨c', call'⟩ := next
          generalize call.attempts w.catalog = more
          intro hadvance hafter
          have hidle : c'.ledger.rows = w.catalog.ledger.rows →
              call'.created? = call.created? →
              ∃ added, c'.ledger.rows = rows ++ added ∧
                added.Perm ((w.calls.set i call').filterMap Call.created?) := by
            intro hsame hcreated
            refine ⟨added, hsame.trans hrows, hbefore.trans (.trans ?_ hafter.symm)⟩
            rw [List.filterMap_cons, List.filterMap_cons, hcreated]
          cases hadvance with
          | begin hl | insert _ _ _ hl | refuse _ hl | announce hl | undo hl | list hl
          | rest _ hl =>
              have hsame := congrArg Ledger.rows hl
              exact hidle hsame rfl
          | remove | miss | finish => exact absurd (List.mem_of_getElem? hrequest) (hno _)
          | @commit input product _ hl =>
              refine ⟨added ++ [product], ?_, ?_⟩
              · rw [hl, ← List.append_assoc, ← hrows]
              · refine List.perm_append_comm.trans (.trans ?_ hafter.symm)
                exact hbefore.cons product

/-- The same of calls that are started together: none of them has succeeded before. -/
theorem added_start (c : Catalog) (family : List Request) (hno : ∀ id, .delete id ∉ family)
    (schedule : List Nat) :
    let w := Workload.run ⟨c.inject {}, family.map Request.call⟩ schedule
    ∃ added, w.catalog.ledger.rows = (c.inject {}).ledger.rows ++ added ∧
      added.Perm (w.calls.filterMap Call.created?) := by
  have hnone : (family.map Request.call).filterMap Call.created? = [] :=
    List.filterMap_eq_nil_iff.2 (List.forall_mem_map.2 fun request _ => request.created?_call)
  exact (Race.start c family).added_run hno (List.append_nil _).symm (.of_eq hnone.symm) schedule

end Workload.Race

/-! ## Rows and counters -/

/-- Whether a call is a deletion that has removed its row and has not been counted. -/
def Call.uncounted : Call → Bool
  | delete (.removed _) => true
  | create _ | delete _ | list _ | listed _ => false

theorem Call.uncounted_of_ended {call : Call} (h : call.ended = true) :
    call.uncounted = false := by
  cases call with
  | delete call =>
      cases call with
      | removed id => cases h
      | start | finished => rfl
  | create | list | listed => rfl

theorem Request.uncounted_call (request : Request) : request.call.uncounted = false := by
  cases request <;> rfl

/-- Rows and counted deletions without counted creations. -/
def Ledger.balance (l : Ledger) : Int := l.rows.length + l.deleted - l.created

theorem CreateCall.Transition.balance_eq {c c' : Catalog} {call call' : CreateCall}
    {attempts : List Attempt} (h : CreateCall.Transition c call c' call' attempts)
    (hsane : call.Sane) : c'.ledger.balance = c.ledger.balance := by
  cases h with
  | @committed product tx _ hl =>
      have hpending : tx.pending = [product] := hsane
      rw [hl, Ledger.balance, Ledger.balance, hpending]
      simp only [List.length_append, List.length_singleton, Ledger.release]
      omega
  | rested => rfl
  | begun hl | notBegun _ hl | inserted _ _ hl | notInserted _ hl | announced hl
  | notAnnounced _ hl | notCommitted hl | undone hl | retracted _ hl =>
      have hsame := congrArg Ledger.balance hl
      exact hsame

theorem DeleteCall.Transition.balance_eq {c c' : Catalog} {call call' : DeleteCall}
    {attempts : List Attempt} (h : DeleteCall.Transition c call c' call' attempts)
    (hids : (c.ledger.rows.map Product.id).Nodup) :
    c'.ledger.balance + (if (Call.delete call').uncounted then 1 else 0 : Nat) =
      c.ledger.balance + (if (Call.delete call).uncounted then 1 else 0 : Nat) := by
  cases h with
  | @removed id _ hrow hl =>
      obtain ⟨p, hp, rfl⟩ := hrow
      have hpos := List.length_pos_of_mem hp
      rw [hl, Ledger.balance, Ledger.balance, filter_key_eq_erase hids hp,
        List.length_erase_of_mem hp]
      simp only [Call.uncounted, if_true, Bool.false_eq_true, if_false]
      omega
  | notRemoved hl =>
      rw [hl]
      rfl
  | announced accepted hl =>
      rw [hl, Ledger.balance, Ledger.balance]
      simp only [Call.uncounted, Ledger.send, if_true, Bool.false_eq_true, if_false]
      omega
  | rested => rfl

/-- A step of any call keeps rows and counters in balance. -/
theorem Call.balance_step {c : Catalog} {call : Call} (hsane : call.Sane)
    (hids : (c.ledger.rows.map Product.id).Nodup) :
    (call.step c).1.ledger.balance + (if (call.step c).2.uncounted then 1 else 0 : Nat) =
      c.ledger.balance + (if call.uncounted then 1 else 0 : Nat) := by
  cases call with
  | create call =>
      have hbalance := (call.step_transition c).balance_eq hsane
      exact congrArg (· + 0) hbalance
  | delete call => exact (call.step_transition c).balance_eq hids
  | list window =>
      have hl : ((Call.list window).step c).1.ledger = c.ledger := (c.list_ledger window).1
      rw [hl]
      rfl
  | listed result => rfl

namespace Workload

/-- Rows and counters, with deletions that have not been counted. -/
def balance (w : Workload) : Int :=
  w.catalog.ledger.balance + w.calls.countP Call.uncounted

theorem balance_of_counted {w : Workload} (h : ∀ call ∈ w.calls, call.uncounted = false) :
    w.balance = w.catalog.ledger.balance := by
  have hnone : w.calls.countP Call.uncounted = 0 := by
    rw [List.countP_eq_zero]
    intro call hcall
    rw [h call hcall]
    decide
  rw [balance, hnone]
  exact Int.add_zero _

/-- A step keeps rows and counters in balance, and every creation sane. -/
theorem balance_step {w : Workload} (h : w.Apart) (hsane : ∀ call ∈ w.calls, call.Sane) (i : Nat) :
    (w.step i).balance = w.balance ∧ ∀ call ∈ (w.step i).calls, call.Sane := by
  cases hcall : w.calls[i]? with
  | none =>
      rw [(step_of_none hcall).1]
      exact ⟨rfl, hsane⟩
  | some call =>
      obtain ⟨others, hreserves⟩ := h
      have hids : (w.catalog.ledger.rows.map Product.id).Nodup := by
        have hall := hreserves.ids
        rw [List.map_append] at hall
        exact (List.nodup_append.1 hall).1
      have hsane' := hsane call (List.mem_of_getElem? hcall)
      have hbalance := Call.balance_step hsane' hids
      have hprogress := call.step_progresses w.catalog hsane'
        (by simpa [Catalog.holdings, Function.comp_def] using hids)
      have hbefore := (calls_perm hcall).countP_eq Call.uncounted
      have hafter := (calls_set_perm hcall (call.step w.catalog).2).countP_eq Call.uncounted
      rw [(step_of_some hcall).1]
      rw [List.countP_cons] at hbefore hafter
      refine ⟨?_, fun other hother => ?_⟩
      · rw [balance, balance, hbefore, hafter]
        show (call.step w.catalog).1.ledger.balance + _ = _
        omega
      · rcases List.mem_or_eq_of_mem_set hother with hother | rfl
        · exact hsane other hother
        · exact hprogress.sane

/-- Whatever a workload leads to, with any faults, rows and counters stay in balance. -/
theorem Leads.balance_eq {w₀ w : Workload} {attempts : List Attempt} (h : Leads w₀ w attempts)
    (h₀ : w₀.Apart) (hsane : ∀ call ∈ w₀.calls, call.Sane) (hd : w.catalog.supply.Distinct) :
    w.balance = w₀.balance ∧ ∀ call ∈ w.calls, call.Sane := by
  induction h with
  | refl => exact ⟨rfl, hsane⟩
  | @arrive w _ _ request ih =>
      obtain ⟨hbalance, hsane'⟩ := ih hd
      refine ⟨?_, fun call hcall => ?_⟩
      · rw [← hbalance, balance, balance, List.countP_append]
        simp [request.uncounted_call]
      · rcases List.mem_append.1 hcall with hcall | hcall
        · exact hsane' call hcall
        · obtain rfl := List.mem_singleton.1 hcall
          exact request.sane_call
  | inject _ _ ih => exact ih hd
  | @step w _ h i ih =>
      obtain ⟨hbalance, hsane'⟩ := ih (distinct_of_step hd)
      obtain ⟨hstep, hsane''⟩ := balance_step (h.apart h₀ (distinct_of_step hd)) hsane' i
      exact ⟨hstep.trans hbalance, hsane''⟩

/-- When all calls have ended, those started together have left rows and counters in balance. -/
theorem Leads.balance_ended {c : Catalog} {family : List Request} {w : Workload}
    {attempts : List Attempt} (h : Leads ⟨c, family.map Request.call⟩ w attempts)
    (hstart : Apart ⟨c, family.map Request.call⟩) (hd : w.catalog.supply.Distinct)
    (hended : ∀ call ∈ w.calls, call.ended = true) :
    w.catalog.ledger.balance = c.ledger.balance := by
  have hsane : ∀ call ∈ family.map Request.call, call.Sane :=
    List.forall_mem_map.2 fun request _ => request.sane_call
  have hcounted : ∀ call ∈ family.map Request.call, call.uncounted = false :=
    List.forall_mem_map.2 fun request _ => request.uncounted_call
  have hbalance := (h.balance_eq hstart hsane hd).1
  rwa [balance_of_counted fun call hcall => Call.uncounted_of_ended (hended call hcall),
    balance_of_counted hcounted] at hbalance

end Workload

/-! ## A family of calls -/

/-- A call has got what it competed for. -/
def Call.Succeeded : Call → Prop
  | create (.finished (.ok _)) | delete (.finished (.ok _)) => True
  | create _ | delete _ | list _ | listed _ => False

/-- A call has been told that the product exists already, or does not exist. -/
def Call.Refused : Call → Prop
  | create (.finished (.error e)) => e = .duplicateProduct
  | delete (.finished (.error e)) => e = .noSuchProduct
  | create _ | delete _ | list _ | listed _ => False

namespace Workload

/-- Whether the call with a number competes for a prize. -/
def Competes (family : List Request) (prize : Prize) (i : Nat) : Prop :=
  ∃ request, family[i]? = some request ∧ request.prize? = some prize

/-- The call with a number has succeeded. -/
def SucceededAt (w : Workload) (i : Nat) : Prop := ∃ call, w.calls[i]? = some call ∧ call.Succeeded

/--
After a schedule the call with a number has been refused, and has not tried
to send anything: none of its steps has left the mark of a send in the
trace, and none has added to the events.
-/
def RefusedAt (start : Workload) (schedule : List Nat) (i : Nat) : Prop :=
  (∃ call, (start.run schedule).calls[i]? = some call ∧ call.Refused) ∧
    attemptsOf i start schedule = [] ∧
    .send ∉ addedBy Catalog.trace i start schedule ∧
    addedBy Catalog.events i start schedule = []

/-- Steps without attempts leave neither the mark of a send nor an event. -/
private theorem silent {start : Workload} {schedule : List Nat} {i : Nat}
    (h : attemptsOf i start schedule = []) :
    .send ∉ addedBy Catalog.trace i start schedule ∧
      addedBy Catalog.events i start schedule = [] := by
  constructor
  · rw [← List.count_eq_zero, count_addedBy_trace, h]
    rfl
  · rw [addedBy_events, h]
    rfl

/-- A call on its track that has ended has succeeded or been refused, as it stands. -/
private theorem outcome {request : Request} {call : Call} {sent : List Attempt} {prize : Prize}
    (h : request.Tracks call sent) (hprize : request.prize? = some prize)
    (hended : call.ended = true) :
    (call.standing = .won ∧ call.Succeeded) ∨
      (call.standing = .lost ∧ call.Refused ∧ sent = []) := by
  cases h with
  | created | deleted => exact .inl ⟨rfl, trivial⟩
  | duplicate | missing => exact .inr ⟨rfl, rfl, rfl⟩
  | starting | begun | inserted | published | failing | deleting | removed => cases hended
  | listing | listed => cases hprize

/-- After a schedule one call has succeeded, and all others that compete for the prize have been
refused. -/
def OneSucceeds (family : List Request) (start : Workload) (schedule : List Nat)
    (prize : Prize) : Prop :=
  ∃ i, Competes family prize i ∧ (start.run schedule).SucceededAt i ∧
    ∀ j ≠ i, Competes family prize j → start.RefusedAt schedule j

namespace Race

variable {family : List Request} {start : Workload} {schedule : List Nat} {prize : Prize}

/-- Standings in the end: of calls that do not compete, that have succeeded, and that have been
refused. -/
theorem standing_cases
    (h : Race family (fun i => attemptsOf i start schedule) (start.run schedule))
    (hended : ∀ call ∈ (start.run schedule).calls, call.ended = true) (i : Nat) :
    (¬ Competes family prize i ∧ (start.run schedule).standings family prize i = none) ∨
      (Competes family prize i ∧ (start.run schedule).standings family prize i = some .won ∧
        (start.run schedule).SucceededAt i) ∨
      (Competes family prize i ∧ (start.run schedule).standings family prize i = some .lost ∧
        start.RefusedAt schedule i) := by
  by_cases hcompetes : Competes family prize i
  · obtain ⟨request, hrequest, hprize⟩ := hcompetes
    obtain ⟨hi, -⟩ := List.getElem?_eq_some_iff.1 hrequest
    have hcall := List.getElem?_eq_getElem (h.length ▸ hi : i < (start.run schedule).calls.length)
    have htracks := h.tracks i request _ hrequest hcall
    simp only [standings, hrequest, hcall, if_pos hprize]
    rcases outcome htracks hprize (hended _ (List.mem_of_getElem? hcall)) with
      ⟨hwon, hsucceeded⟩ | ⟨hlost, hrefused, hsilent⟩
    · exact .inr (.inl ⟨⟨request, hrequest, hprize⟩, congrArg some hwon, _, hcall, hsucceeded⟩)
    · exact .inr (.inr ⟨⟨request, hrequest, hprize⟩, congrArg some hlost, ⟨_, hcall, hrefused⟩,
        hsilent, silent hsilent⟩)
  · refine .inl ⟨hcompetes, ?_⟩
    simp only [standings]
    split
    · rename_i request call hrequest hcall
      exact if_neg fun hprize => hcompetes ⟨request, hrequest, hprize⟩
    · rfl

/-- What a contest comes to when all calls have ended. -/
theorem decided (h : Race family (fun i => attemptsOf i start schedule) (start.run schedule))
    {before gone : Prop}
    (hcontest : Contest before gone ((start.run schedule).standings family prize))
    (hended : ∀ call ∈ (start.run schedule).calls, call.ended = true) :
    (¬ before → (∃ i, Competes family prize i) → OneSucceeds family start schedule prize) ∧
      (before → ∀ i, Competes family prize i → start.RefusedAt schedule i) := by
  have hcases := @standing_cases family start schedule prize h hended
  have hover : ∀ i, (start.run schedule).standings family prize i ≠ some .trying := by
    intro i hi
    rcases hcases i with ⟨-, hnone⟩ | ⟨-, hwon, -⟩ | ⟨-, hlost, -⟩
    · cases hi.symm.trans hnone
    · cases hi.symm.trans hwon
    · cases hi.symm.trans hlost
  have hsome : ∀ i, Competes family prize i →
      (start.run schedule).standings family prize i ≠ none := by
    intro i hi hnone
    rcases hcases i with ⟨hnot, -⟩ | ⟨-, hwon, -⟩ | ⟨-, hlost, -⟩
    · exact hnot hi
    · cases hnone.symm.trans hwon
    · cases hnone.symm.trans hlost
  have hloser : ∀ i, (start.run schedule).standings family prize i = some .lost →
      start.RefusedAt schedule i := by
    intro i hi
    rcases hcases i with ⟨-, hnone⟩ | ⟨-, hwon, -⟩ | ⟨-, -, hrefused⟩
    · cases hi.symm.trans hnone
    · cases hi.symm.trans hwon
    · exact hrefused
  obtain ⟨hfree, hgone⟩ := hcontest.decided hover
  constructor
  · rintro hb ⟨i, hi⟩
    obtain ⟨winner, hwinner, hothers⟩ := hfree hb ⟨i, hsome i hi⟩
    refine ⟨winner, ?_⟩
    rcases hcases winner with ⟨-, hnone⟩ | ⟨hcompetes, -, hsucceeded⟩ | ⟨-, hlost, -⟩
    · cases hwinner.symm.trans hnone
    · exact ⟨hcompetes, hsucceeded, fun j hne hj => hloser j (hothers j hne (hsome j hj))⟩
    · cases hwinner.symm.trans hlost
  · exact fun hb i hi => hloser i (hgone hb i (hsome i hi))

end Race

theorem competes_of_mem {family : List Request} {request : Request} {prize : Prize}
    (h : request ∈ family) (hprize : request.prize? = some prize) :
    ∃ i, Competes family prize i := by
  obtain ⟨i, hi⟩ := List.mem_iff_getElem?.1 h
  exact ⟨i, request, hi, hprize⟩

/-- A row that is there has been given its id, and no call waits with this id. -/
private theorem taken_start {c : Catalog} {family : List Request} {id : ProductId}
    (h : Apart ⟨c, family.map Request.call⟩) (hrow : ∃ p ∈ c.ledger.rows, p.id = id) :
    Taken id ⟨c, family.map Request.call⟩ where
  drawn hunused := by
    obtain ⟨others, hreserves⟩ := h
    obtain ⟨p, hp, hid⟩ := hrow
    exact hreserves.drawn id hunused (List.mem_map.2 ⟨p, List.mem_append_left _ hp, hid⟩)
  others call hcall := by
    obtain ⟨request, -, rfl⟩ := List.mem_map.1 hcall
    cases request <;> exact nofun

/--
A family of calls is started together, and nothing fails.  Each call ends
after five steps of its own at most, however the steps are interleaved.  When
all have ended: if there are no deletions, of the creations with a key that
was free exactly one has succeeded, none with a key that was taken, and the
rows added are those of the creations that have succeeded; of the deletions
of a row that was there exactly one has succeeded.  All others have been
refused and have not tried to send anything.

Whatever else happens, with more calls and with faults: when all calls have
ended, the number of rows has changed by the creations counted less the
deletions counted.
-/
theorem duplicates_contend {w₀ : Workload} (h : w₀.Reachable) (family : List Request) :
    let start : Workload := ⟨w₀.catalog.inject {}, family.map Request.call⟩
    (∀ schedule : List Nat,
      let w := start.run schedule
      ((∀ i < family.length, 5 ≤ schedule.count i) → ∀ call ∈ w.calls, call.ended = true) ∧
      ((∀ call ∈ w.calls, call.ended = true) →
        ((∀ id, .delete id ∉ family) →
          (∀ input, .create input ∈ family →
            (start.catalog.ledger.keyTaken input.key = false →
              OneSucceeds family start schedule (.key input.key)) ∧
            (start.catalog.ledger.keyTaken input.key = true →
              ∀ i, Competes family (.key input.key) i → start.RefusedAt schedule i)) ∧
          ∃ added, w.catalog.ledger.rows = start.catalog.ledger.rows ++ added ∧
            added.Perm (w.calls.filterMap Call.created?)) ∧
        (w.catalog.supply.Distinct → ∀ id, .delete id ∈ family →
          (∃ p ∈ start.catalog.ledger.rows, p.id = id) →
            OneSucceeds family start schedule (.row id)))) ∧
    ∀ w attempts, Leads start w attempts → w.catalog.supply.Distinct →
      (∀ call ∈ w.calls, call.ended = true) →
      (w.catalog.ledger.rows.length : Int) - start.catalog.ledger.rows.length =
        (w.catalog.ledger.created - start.catalog.ledger.created : Int) -
          (w.catalog.ledger.deleted - start.catalog.ledger.deleted) := by
  intro start
  have hapart : start.catalog.supply.Distinct → start.Apart := fun hd =>
    ((h.apart hd).inject {}).restart family
  refine ⟨fun schedule => ⟨ended_run _, fun hended => ⟨fun hno => ⟨?_, ?_⟩, ?_⟩⟩, ?_⟩
  · intro input hinput
    have hrace := (Race.start w₀.catalog family).run schedule
    have hcontest := (Race.start w₀.catalog family).contest_key hno
      (Race.contest_start _ family (.key input.key)) schedule
    obtain ⟨hfree, htaken⟩ := hrace.decided hcontest hended
    refine ⟨fun hkey => hfree ?_ (competes_of_mem hinput rfl), htaken⟩
    rw [Ledger.Gone]
    exact Bool.eq_false_iff.1 hkey
  · exact Race.added_start w₀.catalog family hno schedule
  · intro hd id hid hrow
    have hrace := (Race.start w₀.catalog family).run schedule
    have hcontest := (Race.start w₀.catalog family).contest_row
      (taken_start (hapart (distinct_of_run schedule hd)) hrow)
      (Race.contest_start _ family (.row id)) schedule hd
    obtain ⟨p, hp, hpid⟩ := hrow
    exact (hrace.decided hcontest hended).1 (fun hgone => hgone p hp hpid)
      (competes_of_mem hid rfl)
  · intro w attempts hleads hd hended
    have hbalance : w.catalog.ledger.balance = start.catalog.ledger.balance :=
      hleads.balance_ended (hapart (hleads.distinct hd)) hd hended
    rw [Ledger.balance, Ledger.balance] at hbalance
    omega

/-- Two creations of one product, and two deletions of one row, each started together. -/
theorem duplicates_contend_of_pairs :
    ∃ (w₀ : Workload) (creations deletions : List Request) (schedule : List Nat),
      w₀.Reachable ∧ creations.length = 2 ∧ deletions.length = 2 ∧
      OneSucceeds creations ⟨w₀.catalog.inject {}, creations.map Request.call⟩ schedule
        (.key ("Lamp", "Acme")) ∧
      OneSucceeds deletions ⟨w₀.catalog.inject {}, deletions.map Request.call⟩ schedule
        (.row (.timed 0 0)) := by
  let sessions := Sessions.run { supply := .ticking ⟨0, 0⟩ }
    [.begin, .insert 0 ⟨"Cup", "Acme", "", default⟩, .commit 0]
  let c : Catalog := { Catalog.empty (.ticking ⟨0, 0⟩) with
    store := sessions.store
    supply := sessions.supply }
  let w₀ : Workload := ⟨c, []⟩
  have hreachable : w₀.Reachable := .start rfl rfl
  let creations : List Request :=
    [.create ⟨"Lamp", "Acme", "", default⟩, .create ⟨"Lamp", "Acme", "", default⟩]
  let deletions : List Request := [.delete (.timed 0 0), .delete (.timed 0 0)]
  let schedule := [0, 1, 1, 0, 0, 1, 1, 0, 0, 1]
  have hturns : ∀ i < 2, 5 ≤ schedule.count i := by decide
  obtain ⟨hcreations, -⟩ := duplicates_contend hreachable creations
  obtain ⟨hdeletions, -⟩ := duplicates_contend hreachable deletions
  obtain ⟨hended, hresult⟩ := hcreations schedule
  obtain ⟨hended', hresult'⟩ := hdeletions schedule
  refine ⟨w₀, creations, deletions, schedule, hreachable, rfl, rfl, ?_, ?_⟩
  · have hno : ∀ id, Request.delete id ∉ creations := by
      intro id hid
      simp [creations] at hid
    have hfree : (w₀.catalog.inject {}).ledger.keyTaken ("Lamp", "Acme") = false := by decide
    obtain ⟨hkeys, -⟩ := (hresult (hended hturns)).1 hno
    exact (hkeys ⟨"Lamp", "Acme", "", default⟩ List.mem_cons_self).1 hfree
  · have hdrawn : (run ⟨w₀.catalog.inject {}, deletions.map Request.call⟩
        schedule).catalog.supply.drawn = 1 := by
      decide +kernel
    have hids : (run ⟨w₀.catalog.inject {}, deletions.map Request.call⟩
        schedule).catalog.supply.Distinct := by
      intro i j hij hj
      rw [hdrawn] at hj
      omega
    have hrow : ∃ p ∈ (w₀.catalog.inject {}).ledger.rows, p.id = .timed 0 0 := by decide
    exact (hresult' (hended' hturns)).2 hids (.timed 0 0) List.mem_cons_self hrow

end Workload

end ProductCatalog
