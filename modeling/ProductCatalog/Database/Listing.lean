import ProductCatalog.Product.Basic

/-!
# Listing a table

The listing of the products in a database table is a query: the rows ordered
by the instant of their creation and, among rows of one instant, by their
ids, both descending; of these as many as the limit says, after as many as
the offset says. The limit and the offset travel as signed numbers of 64
bits, and a negative one fails the query. The number of all rows comes from
a query of its own.

## Main definitions

* `precedes` — the order of the listing.
* `listing` — what the query gives for a window.
* `page?` — a window of the listing with the number of all rows.
-/

namespace ProductCatalog.Database

/-- Whether a row stands at or before the place of another one in a listing. -/
def precedes (a b : Product) : Bool :=
  if a.createdAt = b.createdAt then b.id.le a.id else b.createdAt.le a.createdAt

/-- The rows in the order of a listing. -/
def ordered (rows : List Product) : List Product := rows.mergeSort precedes

/-- A number as the parameter of a query. -/
def parameter (n : Nat) : Int := (Int64.ofNat n).toInt

/-- The rows that the query gives for a window; `none` if it fails. -/
def listing (rows : List Product) (window : Pagination) : Option (List Product) :=
  let limit := parameter window.limit
  let offset := parameter window.offset
  if limit < 0 || offset < 0 then none
  else some (((ordered rows).drop offset.toNat).take limit.toNat)

/-- A window of the listing with the number of all rows; `none` if the query fails. -/
def page? (rows : List Product) (window : Pagination) : Option ProductPage :=
  (listing rows window).map fun items => ⟨items, rows.length⟩

/-- A number below the bound of signed 64-bit numbers is its own parameter. -/
theorem parameter_of_lt {n : Nat} (h : n < 2 ^ 63) : parameter n = n := by
  rw [parameter, Int64.toInt_ofNat_of_lt h]

section Order

variable {a b c : Product}

theorem precedes_iff : precedes a b = true ↔
    b.createdAt.le a.createdAt = true ∧ (a.createdAt = b.createdAt → b.id.le a.id = true) := by
  unfold precedes
  split
  · rename_i heq
    simp [heq]
  · rename_i hne
    simp [hne]

theorem precedes_total (a b : Product) : (precedes a b || precedes b a) = true := by
  rw [Bool.or_eq_true, precedes_iff, precedes_iff]
  by_cases heq : a.createdAt = b.createdAt
  · have hid := ProductId.le_total b.id a.id
    simpa [heq] using hid
  · have htime := Instant.le_total b.createdAt a.createdAt
    simpa [heq, Ne.symm heq] using htime

theorem precedes_trans (hab : precedes a b = true) (hbc : precedes b c = true) :
    precedes a c = true := by
  rw [precedes_iff] at hab hbc ⊢
  refine ⟨Instant.le_trans hbc.1 hab.1, ?_⟩
  intro heq
  -- what lies between two rows of one instant is of this instant
  have hmiddle : a.createdAt = b.createdAt := Instant.le_antisymm (heq ▸ hbc.1) hab.1
  exact ProductId.le_trans (hbc.2 (hmiddle.symm.trans heq)) (hab.2 hmiddle)

/-- Two rows that precede each other have one id. -/
theorem precedes_antisymm (hab : precedes a b = true) (hba : precedes b a = true) :
    a.id = b.id := by
  rw [precedes_iff] at hab hba
  have heq : a.createdAt = b.createdAt := Instant.le_antisymm hba.1 hab.1
  exact ProductId.le_antisymm (hba.2 heq.symm) (hab.2 heq)

end Order

/-- The listing keeps every row. -/
theorem ordered_perm (rows : List Product) : (ordered rows).Perm rows := List.mergeSort_perm _ _

end ProductCatalog.Database
