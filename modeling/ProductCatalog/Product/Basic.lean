import ProductCatalog.Number.Decimal
import ProductCatalog.Product.Id
import ProductCatalog.Time.Instant

/-!
# Products

A product has a name and a vendor, which together identify it to people, a
description and a price. A new product becomes a product when it is given
an id and the instant of its creation, which is also the instant of its
last change.

A page of a listing holds the products in the page's window and the number
of products in the whole catalog. The window is given by a limit and an
offset; `Pagination.clamped` brings what was asked for into bounds.
-/

namespace ProductCatalog

/-- What is known of a product before it is stored. -/
structure NewProduct where
  name : String
  vendor : String
  description : String
  price : Decimal
deriving DecidableEq, Inhabited

/-- A stored product. -/
structure Product where
  id : ProductId
  name : String
  vendor : String
  description : String
  price : Decimal
  createdAt : Instant
  updatedAt : Instant
deriving DecidableEq, Inhabited

/-- A new product with an id, created at an instant. -/
def NewProduct.stamped (input : NewProduct) (id : ProductId) (now : Instant) : Product :=
  ⟨id, input.name, input.vendor, input.description, input.price, now, now⟩

/-- The name and the vendor of a product. -/
abbrev ProductKey := String × String

/-- The key that a new product asks for. -/
def NewProduct.key (input : NewProduct) : ProductKey := (input.name, input.vendor)

/-- The key that a product holds. -/
def Product.key (product : Product) : ProductKey := (product.name, product.vendor)

@[simp] theorem NewProduct.key_stamped (input : NewProduct) (id : ProductId) (now : Instant) :
    (input.stamped id now).key = input.key := rfl

/-! ## Windows of a listing -/

/-- The window of a listing: how many products, after how many others. -/
structure Pagination where
  limit : Nat
  offset : Nat
deriving Repr, DecidableEq

namespace Pagination

/-- The limit used where none is asked for. -/
def defaultLimit : Nat := 10

/-- The greatest limit. -/
def maxLimit : Nat := 100

/-- The offset used where none is asked for. -/
def defaultOffset : Nat := 0

/--
The window for what was asked for. A limit is cut off at the greatest one;
one that is missing, zero or negative is replaced by the default. An
offset that is missing or negative is replaced by zero.
-/
def clamped (limit offset : Option Int) : Pagination where
  limit := match limit with
    | some n => if 0 < n then min n.toNat maxLimit else defaultLimit
    | none => defaultLimit
  offset := match offset with
    | some n => if 0 < n then n.toNat else defaultOffset
    | none => defaultOffset

instance : Inhabited Pagination := ⟨clamped none none⟩

end Pagination

/-- The products in a window, and the number of all products. -/
structure ProductPage where
  items : List Product
  total : Nat
deriving DecidableEq, Inhabited

end ProductCatalog
