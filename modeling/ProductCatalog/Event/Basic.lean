import ProductCatalog.Product.Id

/-!
# Lifecycle events

When a product has been created or deleted, an event says so to other
services. An event has one of two kinds and the id of its product.
-/

namespace ProductCatalog

/-- What happened to a product. -/
inductive EventKind
  | created
  | deleted
deriving Repr, DecidableEq, Inhabited

namespace EventKind

/-- All kinds in their fixed order. -/
def all : List EventKind := [created, deleted]

/-- The position of a kind in the fixed order. -/
def index : EventKind → Nat
  | created => 0
  | deleted => 1

/-- The name of a kind in messages to other services. -/
def wireName : EventKind → String
  | created => "create_product"
  | deleted => "delete_product"

/-- The kind that a name denotes. -/
def ofWireName? (name : String) : Option EventKind :=
  if name = created.wireName then some created
  else if name = deleted.wireName then some deleted
  else none

/-- The word for a kind in diagnostics. -/
def label : EventKind → String
  | created => "Created"
  | deleted => "Deleted"

/-- Every kind is found under its own name. -/
theorem ofWireName?_wireName (kind : EventKind) : ofWireName? kind.wireName = some kind := by
  cases kind <;> decide

end EventKind

/-- Something that happened to a product. -/
structure LifecycleEvent where
  kind : EventKind
  productId : ProductId
deriving DecidableEq, Inhabited

end ProductCatalog
