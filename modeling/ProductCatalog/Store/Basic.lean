import ProductCatalog.Product.Basic
import ProductCatalog.Product.Error

/-!
# The product store

The store keeps the committed products in the order of their commits. An
insert belongs to a transaction: it reserves the product's key, name and
vendor, against every other insert, and the product itself stays with the
transaction until it ends. Ending gives the reservations back, whichever
way the transaction ends; only a successful commit adds the products to
the rows.

The store can be told to let its next inserts or commits fail. A failing
insert changes nothing else; a failing commit still ends its transaction.

## Main definitions

* `Store` — rows, reservations and faults.
* `Transaction` — the products that wait for a commit.
* `Store.insert`, `commit`, `release`, `delete`, `list` — the operations.
-/

namespace ProductCatalog

/-- The products that a transaction has inserted, in order. -/
structure Transaction where
  pending : List Product := []
deriving DecidableEq, Inhabited

/-- The keys that a transaction has reserved. -/
def Transaction.keys (tx : Transaction) : List ProductKey := tx.pending.map Product.key

/-- How many of the next operations shall fail. -/
structure Store.Faults where
  inserts : Nat := 0
  commits : Nat := 0
deriving Repr, DecidableEq

/-- The committed products and the keys reserved by open transactions. -/
structure Store where
  /-- Committed products, in the order of their commits. -/
  rows : List Product := []
  /-- Keys reserved by inserts that wait for a commit. -/
  reserved : List ProductKey := []
  faults : Store.Faults := {}
deriving DecidableEq, Inhabited

namespace Store

/-- Whether a key is reserved or held by a committed product. -/
def keyTaken (s : Store) (key : ProductKey) : Bool :=
  s.reserved.contains key || s.rows.any fun p => p.key = key

/--
Inserts a product into a transaction, as the product `id` created at `now`.
The key must be free.
-/
def insert (s : Store) (tx : Transaction) (input : NewProduct) (id : ProductId) (now : Instant) :
    Store × Transaction × Except CatalogError Product :=
  match s.faults.inserts with
  | n + 1 =>
    ({ s with faults := { s.faults with inserts := n } }, tx,
      .error (.internal "injected insert failure"))
  | 0 =>
    if s.keyTaken input.key then (s, tx, .error .duplicateProduct)
    else
      let product := input.stamped id now
      ({ s with reserved := s.reserved ++ [input.key] },
        { tx with pending := tx.pending ++ [product] }, .ok product)

/-- Gives back the keys that a transaction has reserved. -/
def release (s : Store) (tx : Transaction) : Store :=
  { s with reserved := s.reserved.filter fun key => !tx.keys.contains key }

/-- Ends a transaction by committing it. -/
def commit (s : Store) (tx : Transaction) : Store × Except CatalogError Unit :=
  match s.faults.commits with
  | n + 1 =>
    ({ s.release tx with faults := { s.faults with commits := n } },
      .error (.internal "injected commit failure"))
  | 0 => ({ s.release tx with rows := s.rows ++ tx.pending }, .ok ())

/-- The committed product with an id. -/
def get? (s : Store) (id : ProductId) : Option Product := s.rows.find? fun p => p.id = id

/-- Whether a product with an id is committed. -/
def contains (s : Store) (id : ProductId) : Bool := (s.get? id).isSome

/-- Deletes the committed product with an id. -/
def delete (s : Store) (id : ProductId) : Store × Except CatalogError Unit :=
  let rows := s.rows.filter fun p => p.id != id
  if rows.length = s.rows.length then (s, .error .noSuchProduct)
  else ({ s with rows := rows }, .ok ())

/-- The committed products, the latest creation first; of one instant, the latest commit first. -/
def newestFirst (s : Store) : List Product :=
  s.rows.reverse.mergeSort fun a b => b.createdAt.le a.createdAt

/-- A window of the committed products, the newest first. -/
def list (s : Store) (window : Pagination) : ProductPage where
  items := (s.newestFirst.drop window.offset).take window.limit
  total := s.rows.length

/-! ## What each operation does to the rows and the reservations -/

@[simp] theorem rows_release (s : Store) (tx : Transaction) : (s.release tx).rows = s.rows := rfl

@[simp] theorem rows_insert (s : Store) (tx : Transaction) (input : NewProduct) (id : ProductId)
    (now : Instant) : (s.insert tx input id now).1.rows = s.rows := by
  unfold insert
  split
  · rfl
  · split <;> rfl

/-- The listing is a permutation of the committed products. -/
theorem newestFirst_perm (s : Store) : s.newestFirst.Perm s.rows :=
  (List.mergeSort_perm _ _).trans s.rows.reverse_perm

end Store

end ProductCatalog
