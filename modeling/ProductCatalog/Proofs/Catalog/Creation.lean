import ProductCatalog.Proofs.Catalog.Ledger

/-!
# A creation is all or nothing

A creation is run alone, with faults set before any of its steps, and
compared with what the catalog held before it.  At every point the ledger
is the one before the creation with one reservation more at most, and with
the events that have been taken; the stages of the call say which.

## Main results

* `Creation.Course.next` — every step keeps to the course.
* `Catalog.canCreate_iff` — an undisturbed creation needs a free key.
* `Catalog.create_all_or_nothing` — what is left behind in the end, or when
  the call is dropped inside a send.
-/

namespace ProductCatalog

open Catalog

/-- A creation under way, with the attempts to send that it has made. -/
structure Creation where
  catalog : Catalog
  call : CreateCall
  attempts : List Attempt := []

namespace Creation

/-- A creation that is about to begin. -/
def start (c : Catalog) (input : NewProduct) : Creation := ⟨c, .start input, []⟩

/-- Makes the next step, after faults have been set. -/
def next (r : Creation) (faults : Option Injection) : Creation :=
  let c := match faults with
    | some i => r.catalog.inject i
    | none => r.catalog
  ⟨(r.call.step c).1, (r.call.step c).2, r.attempts ++ (Call.create r.call).attempts c⟩

/-- Makes a number of steps; a plan says which faults are set before each of them. -/
def under (plan : Nat → Option Injection) (r : Creation) : Nat → Creation
  | 0 => r
  | n + 1 => (r.under plan n).next (plan n)

/-- The catalog that is left when a creation is dropped inside its next step. -/
def dropped (r : Creation) : Catalog := r.call.abandonInside r.catalog

private theorem steps_succ (n : Nat) (c : Catalog) (call : CreateCall) :
    CreateCall.steps (n + 1) c call =
      (CreateCall.steps n c call).2.step (CreateCall.steps n c call).1 := by
  induction n generalizing c call with
  | zero => rfl
  | succ n ih => exact ih (call.step c).1 (call.step c).2

/-- Without faults on the way a creation makes its steps as they are. -/
theorem under_none (c : Catalog) (call : CreateCall) (n : Nat) :
    CreateCall.steps n c call =
      ((under (fun _ => none) ⟨c, call, []⟩ n).catalog,
        (under (fun _ => none) ⟨c, call, []⟩ n).call) := by
  induction n with
  | zero => rfl
  | succ n ih =>
      rw [steps_succ, ih]
      rfl

/-! ## The course of a creation -/

variable {before : Catalog} {input : NewProduct}

/-- The product that a creation inserts. -/
def product (before : Catalog) (input : NewProduct) : Product :=
  input.stamped before.supply.id before.supply.now

/--
Where a creation can be after a number of steps, and what it has left
behind so far.
-/
inductive Course (before : Catalog) (input : NewProduct) : Nat → Creation → Prop
  | start {c} (hl : c.ledger = before.ledger) (hs : c.supply = before.supply) :
      Course before input 0 ⟨c, .start input, []⟩
  | begun {c} (hl : c.ledger = before.ledger) (hs : c.supply = before.supply) :
      Course before input 1 ⟨c, .begun input {}, []⟩
  | inserted {c} (hfree : before.ledger.keyTaken input.key = false)
      (hl : c.ledger = before.ledger.reserve input.key) :
      Course before input 2
        ⟨c, .inserted (product before input) ⟨[product before input]⟩, []⟩
  | published {c} (hfree : before.ledger.keyTaken input.key = false)
      (hl : c.ledger =
        (before.ledger.reserve input.key).send [⟨.created, (product before input).id⟩]) :
      Course before input 3
        ⟨c, .published (product before input) ⟨[product before input]⟩,
          [⟨⟨.created, (product before input).id⟩, true⟩]⟩
  | failing {n c tx e attempts} (hn : n < 5) (he : e ≠ commitFailure)
      (hl : c.ledger.release tx.keys = before.ledger) (hnone : accepted attempts = []) :
      Course before input n ⟨c, .failing tx e, attempts⟩
  | retracting {c} (hl : c.ledger = before.ledger.send [⟨.created, (product before input).id⟩]) :
      Course before input 4
        ⟨c, .retracting (product before input) commitFailure,
          [⟨⟨.created, (product before input).id⟩, true⟩]⟩
  | completed {n c} (hfree : before.ledger.keyTaken input.key = false)
      (hl : c.ledger = { before.ledger.send [⟨.created, (product before input).id⟩] with
        rows := before.ledger.rows ++ [product before input]
        created := before.ledger.created + 1 }) :
      Course before input n
        ⟨c, .finished (.ok (product before input)),
          [⟨⟨.created, (product before input).id⟩, true⟩]⟩
  | refused {n c e attempts} (he : e ≠ commitFailure) (hl : c.ledger = before.ledger)
      (hnone : accepted attempts = []) :
      Course before input n ⟨c, .finished (.error e), attempts⟩
  | retracted {n c} (taken : Bool)
      (hl : c.ledger = before.ledger.send (accepted
        [⟨⟨.created, (product before input).id⟩, true⟩,
          ⟨⟨.deleted, (product before input).id⟩, taken⟩])) :
      Course before input n
        ⟨c, .finished (.error commitFailure),
          [⟨⟨.created, (product before input).id⟩, true⟩,
            ⟨⟨.deleted, (product before input).id⟩, taken⟩]⟩

namespace Course

variable {n : Nat} {r : Creation}

/-- Faults that are yet to come leave a creation where it is. -/
theorem inject (h : Course before input n r) (i : Injection) :
    Course before input n { r with catalog := r.catalog.inject i } := by
  cases h with
  | start hl hs => exact .start hl hs
  | begun hl hs => exact .begun hl hs
  | inserted hfree hl => exact .inserted hfree hl
  | published hfree hl => exact .published hfree hl
  | failing hn he hl hnone => exact .failing hn he hl hnone
  | retracting hl => exact .retracting hl
  | completed hfree hl => exact .completed hfree hl
  | refused he hl hnone => exact .refused he hl hnone
  | retracted taken hl => exact .retracted taken hl

/-- The only key of the transaction is given back, whatever has been sent meanwhile. -/
private theorem release_reserved {c : Catalog} {events : List LifecycleEvent}
    (hfree : before.ledger.keyTaken input.key = false)
    (hl : c.ledger = (before.ledger.reserve input.key).send events) :
    c.ledger.release (Transaction.keys ⟨[product before input]⟩) = before.ledger.send events := by
  rw [hl, Ledger.release_send]
  exact congrArg (Ledger.send · events) (Ledger.release_reserve hfree)

/-- Every step keeps to the course. -/
theorem step (h : Course before input n r) :
    Course before input (n + 1)
      ⟨(r.call.step r.catalog).1, (r.call.step r.catalog).2,
        r.attempts ++ (Call.create r.call).attempts r.catalog⟩ := by
  obtain ⟨c, call, attempts⟩ := r
  have hstep := call.step_transition c
  revert hstep
  generalize (call.step c).1 = c'
  generalize (call.step c).2 = call'
  generalize (Call.create call).attempts c = more
  intro hstep
  cases h with
  | start hl hs =>
      cases hstep with
      | begun hl' hs' => exact .begun (hl'.trans hl) (hs'.trans hs)
      | notBegun he hl' => exact .refused he (hl'.trans hl) rfl
  | begun hl hs =>
      cases hstep with
      | inserted hp hfree hl' =>
          rw [hs] at hp
          subst hp
          rw [hl] at hfree hl'
          exact .inserted hfree hl'
      | notInserted he hl' =>
          refine .failing (by omega) he ?_ rfl
          rw [hl', hl]
          exact Ledger.release_nil _
  | inserted hfree hl =>
      cases hstep with
      | announced hl' =>
          rw [hl] at hl'
          exact .published hfree hl'
      | notAnnounced he hl' =>
          refine .failing (by omega) he ?_ rfl
          have hreleased :=
            release_reserved hfree ((hl'.trans hl).trans (Ledger.send_nil _).symm)
          rwa [Ledger.send_nil] at hreleased
  | published hfree hl =>
      have hreleased := release_reserved hfree hl
      cases hstep with
      | committed hl' =>
          refine .completed hfree ?_
          rw [hl', hreleased, hl]
          rfl
      | notCommitted hl' => exact .retracting (hl'.trans hreleased)
  | failing hn he hl hnone =>
      cases hstep with
      | undone hl' =>
          rw [List.append_nil]
          exact .refused he (hl'.trans hl) hnone
  | retracting hl =>
      cases hstep with
      | retracted taken hl' =>
          refine .retracted taken ?_
          rw [hl', hl]
          cases taken <;> simp [Ledger.send, accepted]
  | completed hfree hl =>
      cases hstep
      exact .completed hfree hl
  | refused he hl hnone =>
      cases hstep
      rw [List.append_nil]
      exact .refused he hl hnone
  | retracted taken hl =>
      cases hstep
      exact .retracted taken hl

/-- So does every step before which faults are set. -/
theorem next (h : Course before input n r) (faults : Option Injection) :
    Course before input (n + 1) (r.next faults) := by
  cases faults with
  | none => exact h.step
  | some i => exact (h.inject i).step

end Course

/-- A creation keeps to its course under any plan. -/
theorem course_under (before : Catalog) (input : NewProduct) (plan : Nat → Option Injection)
    (n : Nat) : Course before input n ((start before input).under plan n) := by
  induction n with
  | zero => exact .start rfl rfl
  | succ n ih => exact ih.next (plan n)

/-- Five steps are enough for every creation. -/
theorem Course.finished {before : Catalog} {input : NewProduct} {r : Creation}
    (h : Course before input 5 r) : ∃ result, r.call = .finished result := by
  cases h with
  | failing hn => exact absurd hn (by decide)
  | completed | refused | retracted => exact ⟨_, rfl⟩

end Creation

/-! ## Creating again -/

/-- Whether a creation with this input succeeds if nothing disturbs it. -/
def Catalog.CanCreate (c : Catalog) (input : NewProduct) : Prop :=
  ∃ p, ((c.inject {}).create input).2 = .ok p

/-- An undisturbed creation does what its steps do. -/
theorem Catalog.create_eq (c : Catalog) (input : NewProduct) :
    let r := (Creation.start c input).under (fun _ => none) 5
    r.call = .finished (c.create input).2 ∧ r.catalog = (c.create input).1 := by
  obtain ⟨result, hresult⟩ := (Creation.course_under c input (fun _ => none) 5).finished
  rw [create, Creation.under_none]
  simp only [Creation.start] at hresult ⊢
  rw [hresult]
  exact ⟨rfl, rfl⟩

/-- A free key is all that an undisturbed creation needs. -/
theorem Catalog.canCreate_iff (c : Catalog) (input : NewProduct) :
    c.CanCreate input ↔ c.ledger.keyTaken input.key = false := by
  constructor
  · rintro ⟨p, hp⟩
    have hcourse := Creation.course_under (c.inject {}) input (fun _ => none) 5
    have hfinished := (create_eq (c.inject {}) input).1
    rw [hp] at hfinished
    revert hcourse hfinished
    generalize (Creation.start (c.inject {}) input).under (fun _ => none) 5 = r
    intro hcourse hfinished
    cases hcourse with
    | completed hfree => exact hfree
    | failing | refused | retracted => simp at hfinished
  · intro hfree
    have hfree' : c.store.keyTaken input.key = false := hfree
    refine ⟨input.stamped c.supply.id c.supply.now, ?_⟩
    have hinsert :
        ({ c.store with faults := {} } : Store).insert {} input c.supply.id c.supply.now =
        ({ c.store with faults := {}, reserved := c.store.reserved ++ [input.key] },
          ⟨[input.stamped c.supply.id c.supply.now]⟩,
          .ok (input.stamped c.supply.id c.supply.now)) := by
      rw [Store.insert]
      exact if_neg (by rw [Store.keyTaken] at hfree' ⊢; rw [hfree']; decide)
    simp only [create, CreateCall.steps, CreateCall.step, begin, mark, inject, insert,
      Store.insertFrom, hinsert, publish, Queue.send, commit, Store.commit]

/-! ## All or nothing -/

/--
A creation has come to nothing: rows, reservations and counters are what
they were, no other events than those attempted have been added, and what
could be created can still be.
-/
structure Creation.Undone (before after : Catalog) (input : NewProduct) (attempts : List Attempt) :
    Prop where
  ledger : after.ledger = before.ledger.send (accepted attempts)
  again : before.CanCreate input → after.CanCreate input

/-- Events do not keep anybody from creating a product. -/
theorem Creation.undone_of_ledger {before after : Catalog} {input : NewProduct}
    {attempts : List Attempt} (hl : after.ledger = before.ledger.send (accepted attempts)) :
    Creation.Undone before after input attempts where
  ledger := hl
  again hcan := by
    rw [Catalog.canCreate_iff] at hcan ⊢
    rw [hl]
    exact hcan

/-- How a creation can end, and what it has left behind then. -/
inductive Creation.Ended (before : Catalog) (input : NewProduct) (r : Creation) :
    Except CatalogError Product → Prop
  /-- One row, one event and one creation more. -/
  | completed (hattempts : r.attempts = [⟨⟨.created, (product before input).id⟩, true⟩])
      (hledger : r.catalog.ledger = { before.ledger with
        rows := before.ledger.rows ++ [product before input]
        events := before.ledger.events ++ [⟨.created, (product before input).id⟩]
        created := before.ledger.created + 1 }) :
      Ended before input r (.ok (product before input))
  /-- Something else than the commit has failed, and nothing has been sent. -/
  | refused {e} (he : e ≠ commitFailure) (hnone : accepted r.attempts = [])
      (hundone : Undone before r.catalog input r.attempts) : Ended before input r (.error e)
  /-- The commit has failed; a deletion has followed the creation, or was tried to. -/
  | retracted (taken : Bool)
      (hattempts : r.attempts = [⟨⟨.created, (product before input).id⟩, true⟩,
        ⟨⟨.deleted, (product before input).id⟩, taken⟩])
      (hundone : Undone before r.catalog input r.attempts) :
      Ended before input r (.error commitFailure)

/-- The end of the course is one of these. -/
theorem Creation.Course.ended {before : Catalog} {input : NewProduct} {n : Nat} {r : Creation}
    {result : Except CatalogError Product} (h : Course before input n r)
    (hend : r.call = .finished result) : Ended before input r result := by
  cases h with
  | start | begun | inserted | published | failing | retracting => cases hend
  | completed hfree hl =>
      cases hend
      exact .completed rfl hl
  | refused he hl hnone =>
      cases hend
      refine .refused he hnone (undone_of_ledger ?_)
      rw [hnone, Ledger.send_nil]
      exact hl
  | retracted taken hl =>
      cases hend
      exact .retracted taken rfl (undone_of_ledger hl)

/-- What a creation leaves behind when it is dropped inside a send. -/
theorem Creation.Course.dropped_in_send {before : Catalog} {input : NewProduct} {n : Nat}
    {r : Creation} (h : Course before input n r) (hsend : r.call.next? = some .send) :
    (accepted r.attempts = [] ∨
        (r.call = .retracting (product before input) commitFailure ∧
          r.attempts = [⟨⟨.created, (product before input).id⟩, true⟩])) ∧
      Undone before r.dropped input r.attempts := by
  cases h with
  | start | begun | published | failing | completed | refused | retracted => cases hsend
  | inserted hfree hl =>
      have hreleased := release_reserved hfree (hl.trans (Ledger.send_nil _).symm)
      exact ⟨.inl rfl, undone_of_ledger hreleased⟩
  | retracting hl => exact ⟨.inr ⟨rfl, rfl⟩, undone_of_ledger hl⟩

/--
A creation ends after five steps at most, whatever faults are set before
any of them, and leaves behind all or nothing.  If it is dropped instead
inside a send that never ends, it leaves nothing behind but, if its commit
had failed before, the event that was to be taken back.
-/
theorem Catalog.create_all_or_nothing (c : Catalog) (input : NewProduct)
    (plan : Nat → Option Injection) :
    let run := (Creation.start c input).under plan
    (∃ result, (run 5).call = .finished result ∧ Creation.Ended c input (run 5) result) ∧
      ∀ n, (run n).call.next? = some .send →
        (accepted (run n).attempts = [] ∨
            ((run n).call = .retracting (Creation.product c input) commitFailure ∧
              (run n).attempts = [⟨⟨.created, (Creation.product c input).id⟩, true⟩])) ∧
          Creation.Undone c (run n).dropped input (run n).attempts := by
  intro run
  have hcourse : ∀ n, Creation.Course c input n (run n) := Creation.course_under c input plan
  obtain ⟨result, hresult⟩ := (hcourse 5).finished
  refine ⟨⟨result, hresult, (hcourse 5).ended hresult⟩, ?_⟩
  intro n hsend
  exact (hcourse n).dropped_in_send hsend

/-- A commit fails, and the creation is dropped while it takes its event back. -/
theorem Catalog.create_all_or_nothing_of_drop :
    let c := Catalog.empty (.ticking ⟨0, 0⟩)
    let input : NewProduct := ⟨"Cup", "Acme", "", default⟩
    let run := (Creation.start c input).under fun n =>
      if n = 3 then some { store := { commits := 1 } } else none
    (run 4).call.next? = some .send ∧ accepted (run 4).attempts = [⟨.created, .timed 0 0⟩] ∧
      Creation.Undone c (run 4).dropped input (run 4).attempts := by
  intro c input run
  have hsend : (run 4).call.next? = some .send := rfl
  have hsent : accepted (run 4).attempts = [⟨.created, .timed 0 0⟩] := rfl
  obtain ⟨-, hdropped⟩ := create_all_or_nothing c input fun n =>
    if n = 3 then some { store := { commits := 1 } } else none
  exact ⟨hsend, hsent, (hdropped 4 hsend).2⟩

end ProductCatalog
