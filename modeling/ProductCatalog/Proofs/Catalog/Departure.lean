import ProductCatalog.Proofs.Catalog.Creation

/-!
# Creations whose callers go away

A creation makes one request after another, to a repository and to a queue.
Whatever these are, a request is granted or refused, and the answer alone
decides how the creation goes on.  A caller who goes away drops the creation
inside a request, which may have been carried out all the same, and with the
creation its transaction.

An event that has been taken is out, and a failed commit is followed by the
event that takes it back.  Only the time between the two is open: a creation
that is dropped inside the send that the queue has taken, or inside a commit
that is not carried out, is rolled back and leaves its event behind.

## Main definitions

* `CreateCall.Replied` — what the answer to a request makes of a creation.
* `CreateCall.After`, `CreateCall.Gone` — a creation with all it has
  requested, under way and ended or dropped.
* `CreateCall.LeftOpen` — it has been dropped in the open time.

## Main results

* `CreateCall.step_replied`, `Creation.after_under` — the steps at a catalog
  are answers to requests, whatever faults are set.
* `published_kept_or_retracted` — an event that has been taken is kept or
  retracted, unless the creation is dropped in the open time.
* `published_not_kept_of_drop` — and otherwise it is not.
-/

namespace ProductCatalog

open Catalog

/-! ## Requests and their answers -/

namespace CreateCall

/-- A request of a creation. -/
inductive Request
  | begin
  | insert
  | send (event : LifecycleEvent)
  | commit
  | rollback
deriving DecidableEq

/-- The request that the next step makes. -/
def request? : CreateCall → Option Request
  | start _ => some .begin
  | begun .. => some .insert
  | inserted product _ => some (.send ⟨.created, product.id⟩)
  | published .. => some .commit
  | failing .. => some .rollback
  | retracting product _ => some (.send ⟨.deleted, product.id⟩)
  | finished _ => none

/--
What the answer to its request makes of a creation, granted or refused, at
any repository and any queue.
-/
inductive Replied : CreateCall → (granted : Bool) → CreateCall → Prop
  | begun {input tx} : Replied (.start input) true (.begun input tx)
  | notBegun {input e} : Replied (.start input) false (.finished (.error e))
  | inserted {input tx tx' product} : Replied (.begun input tx) true (.inserted product tx')
  | notInserted {input tx tx' e} : Replied (.begun input tx) false (.failing tx' e)
  | announced {product tx} : Replied (.inserted product tx) true (.published product tx)
  | notAnnounced {product tx e} : Replied (.inserted product tx) false (.failing tx e)
  | committed {product tx} : Replied (.published product tx) true (.finished (.ok product))
  | notCommitted {product tx e} : Replied (.published product tx) false (.retracting product e)
  | undone {tx e granted} : Replied (.failing tx e) granted (.finished (.error e))
  | retracted {product e granted} :
      Replied (.retracting product e) granted (.finished (.error e))

/-- How a request has ended. -/
inductive Ending
  /-- It has been carried out. -/
  | granted
  /-- It has not been carried out. -/
  | refused
  /-- The creation was dropped before an answer came. -/
  | left (carriedOut : Bool)
deriving DecidableEq

/-- Whether the request has been carried out. -/
def Ending.carriedOut : Ending → Bool
  | granted => true
  | refused => false
  | left carriedOut => carriedOut

/-- The ending that an answer is. -/
def Ending.ofAnswer (granted : Bool) : Ending := if granted then .granted else .refused

@[simp] theorem Ending.carriedOut_ofAnswer (granted : Bool) :
    (ofAnswer granted).carriedOut = granted := by
  cases granted <;> rfl

/-- A request with its ending. -/
structure Deed where
  request : Request
  ending : Ending
deriving DecidableEq

/-- The requests made. -/
def requested (deeds : List Deed) : List Request := deeds.map (·.request)

/-- The requests that have been carried out. -/
def carriedOut (deeds : List Deed) : List Request :=
  requested (deeds.filter (·.ending.carriedOut))

@[simp] theorem mem_requested_snoc {request : Request} {deeds : List Deed} {deed : Deed} :
    request ∈ requested (deeds ++ [deed]) ↔ request ∈ requested deeds ∨ request = deed.request := by
  simp [requested]

@[simp] theorem mem_carriedOut_snoc {request : Request} {deeds : List Deed}
    {deed : Deed} :
    request ∈ carriedOut (deeds ++ [deed]) ↔
      request ∈ carriedOut deeds ∨ request = deed.request ∧ deed.ending.carriedOut = true := by
  cases h : deed.ending.carriedOut <;> simp [carriedOut, requested, h]

/-- Where a creation can be after what it has requested, at any repository and any queue. -/
inductive After (input : NewProduct) : List Deed → CreateCall → Prop
  | start : After input [] (.start input)
  | reply {deeds call call' request granted} (h : After input deeds call)
      (hrequest : call.request? = some request) (hreply : Replied call granted call') :
      After input (deeds ++ [⟨request, .ofAnswer granted⟩]) call'

/-- A creation that nobody waits for any more. -/
inductive Gone (input : NewProduct) : List Deed → CreateCall → Prop
  /-- It has ended. -/
  | ended {deeds result} (h : After input deeds (.finished result)) :
      Gone input deeds (.finished result)
  /-- It has been dropped inside a request. -/
  | dropped {deeds call request} (h : After input deeds call)
      (hrequest : call.request? = some request) (carriedOut : Bool) :
      Gone input (deeds ++ [⟨request, .left carriedOut⟩]) call

/-- Two requests granted, and the product is inserted. -/
theorem After.inserted (input : NewProduct) (product : Product) (tx : Transaction) :
    After input [⟨.begin, .granted⟩, ⟨.insert, .granted⟩] (.inserted product tx) :=
  .reply (.reply .start rfl (@Replied.begun input {})) rfl .inserted

/-- Three requests granted, and its event is out. -/
theorem After.published (input : NewProduct) (product : Product) (tx : Transaction) :
    After input [⟨.begin, .granted⟩, ⟨.insert, .granted⟩,
      ⟨.send ⟨.created, product.id⟩, .granted⟩] (.published product tx) :=
  .reply (.inserted input product tx) rfl .announced

/-! ## Catalogs answer requests -/

/-- The attempt to send that a deed is. -/
def Deed.attempt? (deed : Deed) : Option Attempt :=
  match deed.request with
  | .send event => some ⟨event, deed.ending.carriedOut⟩
  | .begin | .insert | .commit | .rollback => none

/-- A step at a catalog is the answer to the request of the creation. -/
theorem step_replied (c : Catalog) {call : CreateCall} {request : Request}
    (h : call.request? = some request) :
    ∃ granted, Replied call granted (call.step c).2 ∧
      (Call.create call).attempts c =
        (Deed.attempt? ⟨request, .ofAnswer granted⟩).toList := by
  have hstep := call.step_transition c
  revert hstep
  generalize (call.step c).1 = c'
  generalize (call.step c).2 = call'
  generalize (Call.create call).attempts c = attempts
  intro hstep
  cases hstep with
  | begun | inserted | announced | committed =>
      cases h
      exact ⟨true, by constructor, rfl⟩
  | notBegun | notInserted | notAnnounced | notCommitted =>
      cases h
      exact ⟨false, by constructor, rfl⟩
  | undone =>
      cases h
      exact ⟨true, .undone, rfl⟩
  | retracted accepted =>
      cases h
      exact ⟨accepted, .retracted, by cases accepted <;> rfl⟩
  | rested => cases h

end CreateCall

open CreateCall

/-- With the faults that are set before it, a step is one at some catalog. -/
theorem Creation.next_eq (r : Creation) (faults : Option Injection) :
    ∃ c, r.next faults = ⟨(r.call.step c).1, (r.call.step c).2,
      r.attempts ++ (Call.create r.call).attempts c⟩ := by
  cases faults with
  | none => exact ⟨r.catalog, rfl⟩
  | some i => exact ⟨r.catalog.inject i, rfl⟩

/-- So is every step of a creation, whatever faults are set before it, and the attempts to send
are among its deeds. -/
theorem Creation.after_under (c : Catalog) (input : NewProduct) (plan : Nat → Option Injection)
    (n : Nat) :
    ∃ deeds, After input deeds ((start c input).under plan n).call ∧
      deeds.filterMap Deed.attempt? = ((start c input).under plan n).attempts := by
  induction n with
  | zero => exact ⟨[], .start, rfl⟩
  | succ n ih =>
      obtain ⟨deeds, hafter, hattempts⟩ := ih
      obtain ⟨c', hnext⟩ := ((start c input).under plan n).next_eq (plan n)
      rw [under, hnext]
      generalize (start c input).under plan n = r at hafter hattempts ⊢
      cases hrequest : r.call.request? with
      | none =>
          obtain ⟨c₁, call, attempts⟩ := r
          cases call with
          | finished result =>
              exact ⟨deeds, hafter, by rw [hattempts]; exact (List.append_nil _).symm⟩
          | start | begun | inserted | published | failing | retracting => cases hrequest
      | some request =>
          obtain ⟨granted, hreply, hmore⟩ := step_replied c' hrequest
          refine ⟨_, .reply hafter hrequest hreply, ?_⟩
          rw [List.filterMap_append, hattempts, hmore]
          cases h : Deed.attempt? ⟨request, .ofAnswer granted⟩ <;> simp [h]

/-! ## What is out -/

namespace CreateCall

/-- Nothing has been published, kept or retracted. -/
structure Unpublished (deeds : List Deed) : Prop where
  created : ∀ id, .send ⟨.created, id⟩ ∉ carriedOut deeds
  commit : .commit ∉ carriedOut deeds
  deleted : ∀ id, .send ⟨.deleted, id⟩ ∉ requested deeds

theorem Unpublished.snoc {deeds : List Deed} {deed : Deed} (h : Unpublished deeds)
    (hcreated : ∀ id, deed.request = .send ⟨.created, id⟩ → deed.ending.carriedOut = false)
    (hcommit : deed.request ≠ .commit) (hdeleted : ∀ id, deed.request ≠ .send ⟨.deleted, id⟩) :
    Unpublished (deeds ++ [deed]) where
  created id hmem := by
    rcases mem_carriedOut_snoc.1 hmem with hmem | ⟨hrequest, hdone⟩
    · exact h.created id hmem
    · rw [hcreated id hrequest.symm] at hdone
      cases hdone
  commit hmem := by
    rcases mem_carriedOut_snoc.1 hmem with hmem | ⟨hrequest, -⟩
    · exact h.commit hmem
    · exact hcommit hrequest.symm
  deleted id hmem := by
    rcases mem_requested_snoc.1 hmem with hmem | hrequest
    · exact h.deleted id hmem
    · exact hdeleted id hrequest.symm

/-- What a creation has published, kept and retracted where it is. -/
def Publicised (deeds : List Deed) : CreateCall → Prop
  | start _ | begun .. | inserted .. | failing .. => Unpublished deeds
  | published product _ => (∀ id, .send ⟨.created, id⟩ ∈ carriedOut deeds → id = product.id) ∧
      .commit ∉ carriedOut deeds ∧ ∀ id, .send ⟨.deleted, id⟩ ∉ requested deeds
  | retracting product _ => ∀ id, .send ⟨.created, id⟩ ∈ carriedOut deeds → id = product.id
  | finished _ => ∀ id, .send ⟨.created, id⟩ ∈ carriedOut deeds →
      .commit ∈ carriedOut deeds ∨ .send ⟨.deleted, id⟩ ∈ requested deeds

/-- Every answer leaves a creation where it stands. -/
theorem After.publicised {input : NewProduct} {deeds : List Deed} {call : CreateCall}
    (h : After input deeds call) : call.Publicised deeds := by
  induction h with
  | start =>
      constructor <;> simp [carriedOut, requested]
  | @reply deeds call call' request granted _ hrequest hreply ih =>
      cases hreply with
      | begun | inserted | notInserted | notAnnounced =>
          cases hrequest
          exact Unpublished.snoc ih (by simp) (by simp) (by simp)
      | notBegun | undone =>
          cases hrequest
          exact fun id hmem =>
            absurd hmem ((Unpublished.snoc ih (by simp) (by simp) (by simp)).created id)
      | announced =>
          cases hrequest
          refine ⟨fun id hmem => ?_, ?_, fun id => ?_⟩
          · rcases mem_carriedOut_snoc.1 hmem with hmem | ⟨hid, -⟩
            · exact absurd hmem (ih.created id)
            · simpa using hid
          · simpa using ih.commit
          · simpa using ih.deleted id
      | committed =>
          cases hrequest
          exact fun _ _ => .inl (mem_carriedOut_snoc.2 (.inr ⟨rfl, rfl⟩))
      | notCommitted =>
          cases hrequest
          intro id hmem
          rcases mem_carriedOut_snoc.1 hmem with hmem | ⟨-, hdone⟩
          · exact ih.1 id hmem
          · cases hdone
      | retracted =>
          cases hrequest
          intro id hmem
          rcases mem_carriedOut_snoc.1 hmem with hmem | ⟨hid, -⟩
          · exact .inr (mem_requested_snoc.2 (.inr (by rw [ih id hmem])))
          · cases hid

/-- No request of a creation that goes on has been left. -/
theorem After.getLast?_ne {input : NewProduct} {deeds : List Deed} {call : CreateCall}
    (h : After input deeds call) (request : Request) (done : Bool) :
    deeds.getLast? ≠ some ⟨request, .left done⟩ := by
  cases h with
  | start => simp
  | @reply _ _ _ _ granted => cases granted <;> simp [Ending.ofAnswer]

/-! ## Kept or retracted -/

/-- An event that has been taken is kept or retracted. -/
def KeptOrRetracted (id : ProductId) (deeds : List Deed) : Prop :=
  .send ⟨.created, id⟩ ∈ carriedOut deeds →
    .commit ∈ carriedOut deeds ∨ .send ⟨.deleted, id⟩ ∈ requested deeds

instance (id : ProductId) (deeds : List Deed) : Decidable (KeptOrRetracted id deeds) :=
  inferInstanceAs (Decidable (_ → _))

/-- A creation has been dropped with its event out and its transaction open. -/
def LeftOpen (id : ProductId) (deeds : List Deed) : Prop :=
  deeds.getLast? = some ⟨.send ⟨.created, id⟩, .left true⟩ ∨
    deeds.getLast? = some ⟨.commit, .left false⟩

/-- A creation is left open by the last thing it does. -/
theorem leftOpen_snoc {id : ProductId} {deeds : List Deed} {deed : Deed} :
    LeftOpen id (deeds ++ [deed]) ↔
      deed = ⟨.send ⟨.created, id⟩, .left true⟩ ∨ deed = ⟨.commit, .left false⟩ := by
  simp [LeftOpen]

/-- Dropping a creation that is left open rolls its transaction back. -/
theorem abandonInside_ledger (c : Catalog) {call : CreateCall} {product : Product}
    {tx : Transaction} (h : call = .inserted product tx ∨ call = .published product tx) :
    (call.abandonInside c).ledger = c.ledger.release tx.keys := by
  rcases h with rfl | rfl <;> rfl

/-- A creation that has ended has kept or retracted its event, and is not left open. -/
theorem After.settled {input : NewProduct} {deeds : List Deed} {id : ProductId}
    {result : Except CatalogError Product} (h : After input deeds (.finished result))
    (htaken : .send ⟨.created, id⟩ ∈ carriedOut deeds) :
    (.commit ∈ carriedOut deeds ∨ .send ⟨.deleted, id⟩ ∈ requested deeds) ∧ ¬ LeftOpen id deeds :=
  ⟨h.publicised id htaken, fun hopen => hopen.elim (h.getLast?_ne _ _) (h.getLast?_ne _ _)⟩

/-- Where a creation can be dropped when its event has been taken. -/
theorem After.dropped_cases {input : NewProduct} {deeds : List Deed}
    {call : CreateCall} {request : Request} {id : ProductId} {done : Bool}
    (h : After input deeds call) (hrequest : call.request? = some request)
    (htaken : .send ⟨.created, id⟩ ∈ carriedOut (deeds ++ [⟨request, .left done⟩])) :
    (∃ product tx, call = .inserted product tx ∧ product.id = id ∧ done = true ∧
        Unpublished deeds) ∨
      (∃ product tx, call = .published product tx ∧ product.id = id ∧
        .commit ∉ carriedOut deeds ∧ .send ⟨.deleted, id⟩ ∉ requested deeds) ∨
      ∃ product e, call = .retracting product e ∧ product.id = id := by
  have hpublic := h.publicised
  have hcases := mem_carriedOut_snoc.1 htaken
  cases call with
  | start | begun | failing =>
      cases hrequest
      rcases hcases with hmem | ⟨hid, -⟩
      · exact absurd hmem (hpublic.created id)
      · cases hid
  | inserted product tx =>
      cases hrequest
      rcases hcases with hmem | ⟨hid, hdone⟩
      · exact absurd hmem (hpublic.created id)
      · exact .inl ⟨product, tx, rfl, by simpa using hid.symm, hdone, hpublic⟩
  | published product tx =>
      cases hrequest
      obtain ⟨hcreated, hcommit, hdeleted⟩ := hpublic
      rcases hcases with hmem | ⟨hid, -⟩
      · exact .inr (.inl ⟨product, tx, rfl, (hcreated id hmem).symm, hcommit, hdeleted id⟩)
      · cases hid
  | retracting product e =>
      cases hrequest
      rcases hcases with hmem | ⟨hid, -⟩
      · exact .inr (.inr ⟨product, e, rfl, (hpublic id hmem).symm⟩)
      · cases hid
  | finished => cases hrequest

end CreateCall

/--
**A published creation is kept or retracted.** At any repository and any
queue, whatever the answers, and wherever the creation is dropped: if the
queue has taken the event of the creation, then in the end the creation has
been committed or the event that takes it back has been sent, unless the
creation was dropped with the transaction open. Then it is neither, and at a
catalog dropping rolls the transaction back and does nothing else.
-/
theorem published_kept_or_retracted {input : NewProduct} {deeds : List Deed} {call : CreateCall}
    {id : ProductId} (h : Gone input deeds call)
    (htaken : .send ⟨.created, id⟩ ∈ carriedOut deeds) :
    ((.commit ∈ carriedOut deeds ∨ .send ⟨.deleted, id⟩ ∈ requested deeds) ↔
        ¬ LeftOpen id deeds) ∧
      (LeftOpen id deeds → ∃ product tx, product.id = id ∧
        (call = .inserted product tx ∨ call = .published product tx) ∧
        ∀ c, (call.abandonInside c).ledger = c.ledger.release tx.keys) := by
  cases h with
  | ended h =>
      obtain ⟨hsettled, hopen⟩ := h.settled htaken
      exact ⟨iff_of_true hsettled hopen, fun h => absurd h hopen⟩
  | @dropped deeds _ request h hrequest done =>
      rcases h.dropped_cases hrequest htaken with
        ⟨product, tx, rfl, rfl, rfl, hnone⟩ | ⟨product, tx, rfl, rfl, hcommit, hdeleted⟩ |
        ⟨product, e, rfl, rfl⟩
      · cases hrequest
        have hopen : LeftOpen product.id (deeds ++ [⟨.send ⟨.created, product.id⟩, .left true⟩]) :=
          leftOpen_snoc.2 (.inl rfl)
        refine ⟨iff_of_false ?_ (not_not_intro hopen), fun _ => ⟨product, tx, rfl, .inl rfl,
          fun c => abandonInside_ledger c (.inl rfl)⟩⟩
        simpa using ⟨hnone.commit, hnone.deleted product.id⟩
      · cases hrequest
        refine ⟨?_, fun _ => ⟨product, tx, rfl, .inr rfl,
          fun c => abandonInside_ledger c (.inr rfl)⟩⟩
        -- Whether the commit was carried out before the creation was dropped.
        cases done with
        | true => simp [leftOpen_snoc, Ending.carriedOut]
        | false => simp [leftOpen_snoc, Ending.carriedOut, hcommit, hdeleted]
      · cases hrequest
        have hopen : ¬ LeftOpen product.id
            (deeds ++ [⟨.send ⟨.deleted, product.id⟩, .left done⟩]) := by
          simp [leftOpen_snoc]
        exact ⟨iff_of_true (.inr (mem_requested_snoc.2 (.inr rfl))) hopen,
          fun h => absurd h hopen⟩

/-- A commit is refused, and the creation is dropped while it takes its event back. -/
theorem published_kept_or_retracted_of_refused_commit :
    let input : NewProduct := ⟨"Cup", "Acme", "", default⟩
    let product : Product := input.stamped (.timed 0 0) ⟨0, 0⟩
    let deeds : List Deed := [⟨.begin, .granted⟩, ⟨.insert, .granted⟩,
      ⟨.send ⟨.created, product.id⟩, .granted⟩, ⟨.commit, .refused⟩,
      ⟨.send ⟨.deleted, product.id⟩, .left false⟩]
    Gone input deeds (.retracting product commitFailure) ∧
      .send ⟨.created, product.id⟩ ∈ carriedOut deeds ∧ .commit ∉ carriedOut deeds ∧
      ¬ LeftOpen product.id deeds := by
  intro input product deeds
  have hgone : Gone input deeds (.retracting product commitFailure) :=
    .dropped (.reply (.published input product ⟨[product]⟩) rfl .notCommitted) rfl false
  have htaken : .send ⟨.created, product.id⟩ ∈ carriedOut deeds := by decide +kernel
  have hcommit : .commit ∉ carriedOut deeds := by decide +kernel
  have hsent : .send ⟨.deleted, product.id⟩ ∈ requested deeds := by decide +kernel
  exact ⟨hgone, htaken, hcommit, (published_kept_or_retracted hgone htaken).1.1 (.inr hsent)⟩

/--
A creation is dropped inside a send that the queue has taken, and another
inside its commit.  Each has its event out, and neither has committed its
product nor sent anything to take the event back.
-/
theorem published_not_kept_of_drop :
    let c := Catalog.empty (.ticking ⟨0, 0⟩)
    let input : NewProduct := ⟨"Cup", "Acme", "", default⟩
    let id : ProductId := .timed 0 0
    let run := (Creation.start c input).under fun _ => none
    let begun : List Deed := [⟨.begin, .granted⟩, ⟨.insert, .granted⟩]
    let inSend := begun ++ [⟨.send ⟨.created, id⟩, .left true⟩]
    let inCommit := begun ++ [⟨.send ⟨.created, id⟩, .granted⟩, ⟨.commit, .left false⟩]
    (Gone input inSend (run 2).call ∧ ¬ KeptOrRetracted id inSend) ∧
      (run 2).dropped.trace = [.begin, .insert, .send] ∧ (run 2).dropped.store.rows = [] ∧
      (Gone input inCommit (run 3).call ∧ ¬ KeptOrRetracted id inCommit) ∧
      (run 3).dropped.trace = [.begin, .insert, .send, .commit] ∧
      (run 3).dropped.store.rows = [] ∧ (run 3).dropped.events = [⟨.created, id⟩] := by
  intro c input id run begun inSend inCommit
  have hinserted : Gone input inSend (run 2).call :=
    .dropped (.inserted input (Creation.product c input) ⟨[Creation.product c input]⟩) rfl true
  have hpublished : Gone input inCommit (run 3).call :=
    .dropped (.published input (Creation.product c input) ⟨[Creation.product c input]⟩) rfl false
  exact ⟨⟨hinserted, by decide +kernel⟩, by decide +kernel, by decide +kernel,
    ⟨hpublished, by decide +kernel⟩, by decide +kernel, by decide +kernel, by decide +kernel⟩

end ProductCatalog
