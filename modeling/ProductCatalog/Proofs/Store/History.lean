import Mathlib.Data.List.Basic
import ProductCatalog.Store.Sessions

/-!
# Histories of a store

A *history* lists what has been told of the commands at a store: which
inserts have returned which products, how transactions have ended, and which
products have been deleted.  It tells the rows that must be committed and the
products that must hold a reservation.

## Main definitions

* `Deed`, `History` — what is told of one command, and of all.
* `History.rows` — the products of committed transactions, without those
  deleted after the commit.
* `History.uncommitted` — the products of transactions that have not ended.

## Main results

* `History.rows_committed`, `rows_withdrawn`, `rows_deleted`,
  `waiting_ended` — what a deed adds to the rows and takes from them.
* `History.rows_without`, `waiting_without` — a transaction that has been
  withdrawn might as well not have happened.
-/

namespace ProductCatalog

/-- What can be told of a command at a store. -/
inductive Deed
  /-- An insert into a transaction has returned a product. -/
  | inserted (tx : Nat) (product : Product)
  | committed (tx : Nat)
  /-- A transaction has been rolled back or dropped, or its commit has failed. -/
  | withdrawn (tx : Nat)
  | deleted (id : ProductId)
deriving DecidableEq

namespace Deed

/-- The product that a deed has inserted, with its transaction. -/
def insert? : Deed → Option (Nat × Product)
  | inserted tx product => some (tx, product)
  | committed _ | withdrawn _ | deleted _ => none

/-- The transaction that a deed has ended. -/
def end? : Deed → Option Nat
  | committed tx | withdrawn tx => some tx
  | inserted .. | deleted _ => none

/-- The transaction that a deed belongs to. -/
def transaction? : Deed → Option Nat
  | inserted tx _ | committed tx | withdrawn tx => some tx
  | deleted _ => none

end Deed

/-- What has happened at a store, in order. -/
abbrev History := List Deed

namespace History

/-- The products inserted, with their transactions. -/
def inserts (h : History) : List (Nat × Product) := h.filterMap Deed.insert?

/-- The products inserted into a transaction. -/
def products (h : History) (tx : Nat) : List Product :=
  (h.inserts.filter fun entry => entry.1 = tx).map (·.2)

/-- The transactions that have ended, in whatever way. -/
def endings (h : History) : List Nat := h.filterMap Deed.end?

/-- The products whose transactions have not ended, with these. -/
def waiting (h : History) : List (Nat × Product) :=
  h.inserts.filter fun entry => entry.1 ∉ h.endings

/-- The products whose transactions have not ended. -/
def uncommitted (h : History) : List Product := h.waiting.map (·.2)

/--
The products committed by the deeds of a history, in the order of the commits
and for each commit in the order of the inserts, without those deleted later.
-/
def committedBy (h : History) : History → List Product
  | [] => []
  | .committed tx :: later =>
    ((h.products tx).filter fun p => .deleted p.id ∉ later) ++ committedBy h later
  | .inserted .. :: later | .withdrawn _ :: later | .deleted _ :: later => committedBy h later

/-- The rows that a history tells of. -/
def rows (h : History) : List Product := h.committedBy h

/-- A history without the deeds of one transaction. -/
def without (h : History) (tx : Nat) : History := h.filter fun deed => deed.transaction? ≠ some tx

variable {h : History} {tx : Nat}

theorem inserts_snoc (h : History) (deed : Deed) :
    inserts (h ++ [deed]) = h.inserts ++ deed.insert?.toList := by
  rw [inserts, List.filterMap_append]
  cases deed <;> rfl

theorem endings_snoc (h : History) (deed : Deed) :
    endings (h ++ [deed]) = h.endings ++ deed.end?.toList := by
  rw [endings, List.filterMap_append]
  cases deed <;> rfl

theorem products_inserted (h : History) (tx : Nat) (p : Product) (other : Nat) :
    products (h ++ [.inserted tx p]) other =
      h.products other ++ if tx = other then [p] else [] := by
  rw [products, inserts_snoc, List.filter_append, List.map_append]
  by_cases heq : tx = other <;> simp [products, Deed.insert?, heq]

theorem products_of_no_insert {deed : Deed} (hnone : deed.insert? = none) (other : Nat) :
    products (h ++ [deed]) other = h.products other := by
  rw [products, inserts_snoc, hnone, Option.toList_none, List.append_nil, products]

/-! ### Products that wait for the end of their transaction -/

theorem mem_products {p : Product} : p ∈ h.products tx ↔ (tx, p) ∈ h.inserts := by
  simp [products]

theorem mem_waiting {entry : Nat × Product} :
    entry ∈ h.waiting ↔ entry ∈ h.inserts ∧ entry.1 ∉ h.endings := by
  rw [waiting, List.mem_filter, decide_eq_true_iff]

theorem waiting_inserted (p : Product) (hopen : tx ∉ h.endings) :
    waiting (h ++ [.inserted tx p]) = h.waiting ++ [(tx, p)] := by
  rw [waiting, inserts_snoc, endings_snoc]
  simp [waiting, Deed.insert?, Deed.end?, hopen]

/-- The end of a transaction is the end of waiting for its products, and for no others. -/
theorem waiting_ended {deed : Deed} (hend : deed.end? = some tx) (hinsert : deed.insert? = none) :
    waiting (h ++ [deed]) = h.waiting.filter fun entry => entry.1 ≠ tx := by
  rw [waiting, inserts_snoc, endings_snoc, hend, hinsert, Option.toList_none, List.append_nil,
    Option.toList_some, waiting, List.filter_filter]
  refine List.filter_congr fun entry _ => ?_
  by_cases htx : entry.1 = tx <;> simp [htx]

theorem waiting_deleted (h : History) (id : ProductId) :
    waiting (h ++ [.deleted id]) = h.waiting := by
  rw [waiting, inserts_snoc, endings_snoc, Deed.insert?, Deed.end?, Option.toList_none,
    List.append_nil, Option.toList_none, List.append_nil, waiting]

/-! ### Rows -/

/-- Committed products do not depend on what other transactions have inserted. -/
theorem committedBy_congr {h h' : History} {deeds : History}
    (heq : ∀ tx, .committed tx ∈ deeds → h'.products tx = h.products tx) :
    h'.committedBy deeds = h.committedBy deeds := by
  induction deeds with
  | nil => rfl
  | cons deed later ih =>
      have hlater := ih fun tx htx => heq tx (List.mem_cons_of_mem _ htx)
      cases deed with
      | committed tx => rw [committedBy, committedBy, hlater, heq tx List.mem_cons_self]
      | inserted | withdrawn | deleted => rwa [committedBy, committedBy]

/-- A deed takes from the rows what it deletes, and adds what it commits. -/
theorem committedBy_snoc (h deeds : History) (deed : Deed) :
    h.committedBy (deeds ++ [deed]) =
      ((h.committedBy deeds).filter fun p => deed ≠ .deleted p.id) ++ h.committedBy [deed] := by
  induction deeds with
  | nil => rfl
  | cons first later ih =>
      cases first with
      | committed tx =>
          rw [List.cons_append, committedBy, ih, committedBy, List.filter_append,
            List.filter_filter, ← List.append_assoc]
          congr 2
          refine List.filter_congr fun p _ => ?_
          by_cases hdeed : deed = .deleted p.id
          · simp [hdeed]
          · simp [hdeed, Ne.symm hdeed]
      | inserted | withdrawn | deleted => rwa [List.cons_append, committedBy, committedBy]

/-- The rows after a deed, unless it inserts into a transaction that has been committed. -/
private theorem rows_snoc {deed : Deed}
    (heq : ∀ tx, .committed tx ∈ h ++ [deed] → products (h ++ [deed]) tx = h.products tx) :
    rows (h ++ [deed]) =
      (h.rows.filter fun p => deed ≠ .deleted p.id) ++ h.committedBy [deed] := by
  rw [rows, committedBy_congr heq, committedBy_snoc, rows]

theorem mem_endings_of_committed (hmem : .committed tx ∈ h) : tx ∈ h.endings :=
  List.mem_filterMap.2 ⟨_, hmem, rfl⟩

theorem mem_endings_of_withdrawn (hmem : .withdrawn tx ∈ h) : tx ∈ h.endings :=
  List.mem_filterMap.2 ⟨_, hmem, rfl⟩

theorem rows_inserted (p : Product) (hopen : tx ∉ h.endings) :
    rows (h ++ [.inserted tx p]) = h.rows := by
  rw [rows_snoc]
  · simp [committedBy]
  · intro other hother
    have hmem : .committed other ∈ h := by simpa using hother
    have hne : tx ≠ other := fun heq => hopen (heq ▸ mem_endings_of_committed hmem)
    rw [products_inserted, if_neg hne, List.append_nil]

theorem rows_committed (h : History) (tx : Nat) :
    rows (h ++ [.committed tx]) = h.rows ++ h.products tx := by
  rw [rows_snoc fun other _ => products_of_no_insert rfl other]
  simp [committedBy]

theorem rows_withdrawn (h : History) (tx : Nat) : rows (h ++ [.withdrawn tx]) = h.rows := by
  rw [rows_snoc fun other _ => products_of_no_insert rfl other]
  simp [committedBy]

theorem rows_deleted (h : History) (id : ProductId) :
    rows (h ++ [.deleted id]) = h.rows.filter fun p => p.id ≠ id := by
  rw [rows_snoc fun other _ => products_of_no_insert rfl other]
  refine (List.append_nil _).trans (List.filter_congr fun p _ => ?_)
  rw [decide_eq_decide]
  exact not_congr ⟨fun heq => (Deed.deleted.inj heq).symm, fun heq => congrArg _ heq.symm⟩

/-! ### A history without a transaction -/

theorem inserts_without (h : History) (tx : Nat) :
    (h.without tx).inserts = h.inserts.filter fun entry => entry.1 ≠ tx := by
  rw [inserts, without, List.filterMap_filter, inserts, List.filter_filterMap]
  congr 1
  funext deed
  cases deed with
  | inserted other p =>
      by_cases htx : other = tx <;> simp [Deed.insert?, Deed.transaction?, Option.filter, htx]
  | committed | withdrawn | deleted => simp [Deed.insert?]

theorem endings_without (h : History) (tx : Nat) :
    (h.without tx).endings = h.endings.filter fun other => other ≠ tx := by
  rw [endings, without, List.filterMap_filter, endings, List.filter_filterMap]
  congr 1
  funext deed
  cases deed with
  | committed other | withdrawn other =>
      by_cases htx : other = tx <;> simp [Deed.end?, Deed.transaction?, Option.filter, htx]
  | inserted | deleted => simp [Deed.end?]

theorem deleted_mem_without {id : ProductId} : .deleted id ∈ h.without tx ↔ .deleted id ∈ h := by
  simp [without, Deed.transaction?]

theorem products_without {other : Nat} (hne : other ≠ tx) :
    (h.without tx).products other = h.products other := by
  rw [products, inserts_without, List.filter_filter, products]
  congr 1
  refine List.filter_congr fun entry _ => ?_
  by_cases heq : entry.1 = other <;> simp [heq, hne]

/-- The deeds of a transaction that has not been committed add nothing to the rows. -/
theorem committedBy_without {deeds : History} (hnone : .committed tx ∉ deeds) :
    h.committedBy (deeds.without tx) = h.committedBy deeds := by
  induction deeds with
  | nil => rfl
  | cons deed later ih =>
      have hlater := ih fun hmem => hnone (List.mem_cons_of_mem _ hmem)
      cases deed with
      | inserted other | withdrawn other =>
          by_cases htx : other = tx <;>
            simpa [without, Deed.transaction?, htx, committedBy] using hlater
      | committed other =>
          have hne : other ≠ tx := fun heq => hnone (heq ▸ List.mem_cons_self)
          have hfirst : without (.committed other :: later) tx =
              .committed other :: without later tx := by
            simp [without, Deed.transaction?, hne]
          rw [hfirst, committedBy, hlater, committedBy]
          simp only [deleted_mem_without]
      | deleted id => simpa [without, Deed.transaction?, committedBy] using hlater

theorem rows_without (hnone : .committed tx ∉ h) : (h.without tx).rows = h.rows := by
  have hproducts : ∀ other, .committed other ∈ h →
      (h.without tx).products other = h.products other :=
    fun other hother => products_without fun heq => hnone (heq ▸ hother)
  rw [rows, committedBy_without hnone, committedBy_congr hproducts, rows]

theorem waiting_without (hended : tx ∈ h.endings) : (h.without tx).waiting = h.waiting := by
  rw [waiting, inserts_without, endings_without, List.filter_filter, waiting]
  refine List.filter_congr fun entry _ => ?_
  by_cases htx : entry.1 = tx <;> simp [htx, hended]

end History

end ProductCatalog
