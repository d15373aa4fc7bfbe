import ProductCatalog.Store.Basic

/-!
# Many transactions at one store

Any number of transactions may be open at a store. Each is known by the
number of its beginning, counted from zero; once it has ended, its number
means nothing any more. Dropping a transaction without a word ends it like
a rollback.

Every successful insert draws the next id and the next reading of the
clock from a `Supply`.

## Main definitions

* `Supply` — ids and clock readings in the order in which they are drawn.
* `Sessions` — a store with its open transactions.
* `Sessions.begin`, `insert`, `commit`, `rollback`, `delete` — the steps.
-/

namespace ProductCatalog

/-- Ids and clock readings for new products, in the order in which they are drawn. -/
structure Supply where
  idAt : Nat → ProductId
  timeAt : Nat → Instant
  /-- How many have been drawn. -/
  drawn : Nat := 0

namespace Supply

/-- The next id. -/
def id (s : Supply) : ProductId := s.idAt s.drawn

/-- The next reading of the clock. -/
def now (s : Supply) : Instant := s.timeAt s.drawn

/-- The supply after a draw. -/
def next (s : Supply) : Supply := { s with drawn := s.drawn + 1 }

/-- Ids and readings that a clock of whole seconds gives from an instant on, one a second. -/
def ticking (start : Instant) : Supply where
  idAt n := ProductId.timed (start.seconds.toNat * 1000) n
  timeAt n := { start with seconds := start.seconds + n }

end Supply

/-- An insert that draws from a supply only if it succeeds. -/
def Store.insertFrom (s : Store) (tx : Transaction) (input : NewProduct) (supply : Supply) :
    Store × Transaction × Supply × Except CatalogError Product :=
  match s.insert tx input supply.id supply.now with
  | (s, tx, .ok product) => (s, tx, supply.next, .ok product)
  | (s, tx, .error e) => (s, tx, supply, .error e)

/-- A store with its open transactions. -/
structure Sessions where
  store : Store := {}
  supply : Supply
  /-- Open transactions by number. -/
  opened : List (Nat × Transaction) := []
  /-- Number of transactions begun so far. -/
  begun : Nat := 0

namespace Sessions

/-- The open transaction with a number. -/
def transaction? (s : Sessions) (tx : Nat) : Option Transaction := s.opened.lookup tx

/-- Forgets the transaction with a number. -/
def close (s : Sessions) (tx : Nat) : Sessions :=
  { s with opened := s.opened.filter (·.1 != tx) }

/-- Begins a transaction. -/
def begin (s : Sessions) : Sessions × Nat :=
  ({ s with opened := s.opened ++ [(s.begun, {})], begun := s.begun + 1 }, s.begun)

/-- Inserts into a transaction; `none` if it has ended. -/
def insert (s : Sessions) (tx : Nat) (input : NewProduct) :
    Sessions × Option (Except CatalogError Product) :=
  match s.transaction? tx with
  | none => (s, none)
  | some t =>
    let (store, t, supply, result) := s.store.insertFrom t input s.supply
    let opened := s.opened.map fun entry => if entry.1 = tx then (tx, t) else entry
    ({ s with store, supply, opened }, some result)

/-- Commits a transaction; `none` if it has ended. -/
def commit (s : Sessions) (tx : Nat) : Sessions × Option (Except CatalogError Unit) :=
  match s.transaction? tx with
  | none => (s, none)
  | some t =>
    let (store, result) := s.store.commit t
    ({ s with store }.close tx, some result)

/-- Ends a transaction without committing it; `none` if it has ended already. -/
def rollback (s : Sessions) (tx : Nat) : Sessions × Option Unit :=
  match s.transaction? tx with
  | none => (s, none)
  | some t => ({ s with store := s.store.release t }.close tx, some ())

/-- Deletes a committed product. -/
def delete (s : Sessions) (id : ProductId) : Sessions × Except CatalogError Unit :=
  let (store, result) := s.store.delete id
  ({ s with store }, result)

/-- Creates a product in a transaction of its own. -/
def create (s : Sessions) (input : NewProduct) : Sessions × Except CatalogError Product :=
  let (store, t, supply, result) := s.store.insertFrom {} input s.supply
  match result with
  | .error e => ({ s with store := store.release t, supply }, .error e)
  | .ok product =>
    let (store, committed) := store.commit t
    ({ s with store, supply }, committed.map fun () => product)

/-- Creates products one after another, up to the first failure. -/
def createAll (s : Sessions) : List NewProduct → Sessions × Except CatalogError Unit
  | [] => (s, .ok ())
  | input :: rest =>
    match s.create input with
    | (s, .ok _) => s.createAll rest
    | (s, .error e) => (s, .error e)

end Sessions

end ProductCatalog
