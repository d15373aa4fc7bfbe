import ProductCatalog.Product.Error
import ProductCatalog.Product.Json
import ProductCatalog.Text.Blank

/-!
# Requests for products

A creation request gives a name, a vendor, a description and a price. The
reader is lenient, so that a request with something missing is not refused
as unreadable: a missing name or vendor is empty, and a missing description
or price is absent. `CreateRequest.validate` then checks all rules and
complains of every one that is broken. The complaints are sorted before
they are reported, so that the order of a report does not depend on the
order in which they were found.

A listing request gives the limit and the offset as texts. A text that is
no number counts as absent.

## Main definitions

* `CreateRequest`, `CreateRequest.read`, `CreateRequest.validate`.
* `listWindow` — the window that a listing request asks for.
-/

namespace ProductCatalog

open Json Text

/-- A creation request as it was read. -/
structure CreateRequest where
  name : String := ""
  vendor : String := ""
  description : Option String := none
  price : Option Decimal := none
deriving DecidableEq, Inhabited

/-- A partly read creation request; a member that may be `null` is still marked as read. -/
structure CreateRequest.Draft where
  name : Option String := none
  vendor : Option String := none
  description : Option (Option String) := none
  price : Option (Option Decimal) := none

/-- The members of a creation request, none of them required. -/
def CreateRequest.members : List (Member CreateRequest.Draft) := [
  { name := "name", required := false, isSet := (·.name.isSome)
    read := fun d bytes => (readText bytes).map fun (v, r) => ({ d with name := some v }, r) },
  { name := "vendor", required := false, isSet := (·.vendor.isSome)
    read := fun d bytes => (readText bytes).map fun (v, r) => ({ d with vendor := some v }, r) },
  { name := "description", required := false, isSet := (·.description.isSome)
    read := fun d bytes =>
      (readOptional readText bytes).map fun (v, r) => ({ d with description := some v }, r) },
  { name := "price", required := false, isSet := (·.price.isSome)
    read := fun d bytes =>
      (readOptional Decimal.read bytes).map fun (v, r) => ({ d with price := some v }, r) }]

/-- Reads a creation request. -/
def CreateRequest.read : Reader CreateRequest := fun bytes =>
  (readRecord "struct CreateProductRequest" CreateRequest.members {} bytes).map fun (d, rest) =>
    (⟨d.name.getD "", d.vendor.getD "", d.description.getD none, d.price.getD none⟩, rest)

namespace CreateRequest

/-- The greatest number of characters of a name or a vendor. -/
def maxNameLength : Nat := 255

/-- The greatest number of characters of a description. -/
def maxDescriptionLength : Nat := 10000

/-- The least price. -/
def minPrice : Decimal := Decimal.zero

/-- The greatest price. -/
def maxPrice : Decimal := Decimal.ofSmall 1000000 (by decide)

/-- A rule that a request breaks. -/
structure Complaint where
  /-- The field that the rule is about; one that begins with `__` is the whole request. -/
  field : String
  /-- What is said about it, if there is more to say than that the field is invalid. -/
  message : Option String
deriving DecidableEq

namespace Complaint

/-- Whether a field stands for the request as a whole. -/
def isGeneral (field : String) : Bool := ['_', '_'].isPrefixOf field.toList

/-- The order of fields in a report: by their names, the whole request last. -/
def fieldLe (a b : String) : Bool := if isGeneral a = isGeneral b then a ≤ b else isGeneral b

/-- What a report says. -/
def text (c : Complaint) : String := c.message.getD (c.field ++ " is invalid")

/-- What is reported of complaints, whatever the order in which they were found. -/
def report (complaints : List Complaint) : List String :=
  (complaints.mergeSort fun a b => fieldLe a.field b.field).map text

end Complaint

/-- The complaint about a text that has fewer or more characters than it may have. -/
def lengthComplaint (field message : String) (least greatest : Nat) (text : String) :
    Option Complaint :=
  if least ≤ text.length && text.length ≤ greatest then none else some ⟨field, message⟩

/-- The complaint about a name. -/
def nameComplaint (request : CreateRequest) : Option Complaint :=
  lengthComplaint "name" "name is required and must be at most 255 characters" 1 maxNameLength
    request.name

/-- The complaint about a vendor. -/
def vendorComplaint (request : CreateRequest) : Option Complaint :=
  lengthComplaint "vendor" "vendor is required and must be at most 255 characters" 1 maxNameLength
    request.vendor

/-- The complaint about a description, which may be absent. -/
def descriptionComplaint (request : CreateRequest) : Option Complaint :=
  request.description.bind <|
    lengthComplaint "description" "description must be at most 10000 characters" 0
      maxDescriptionLength

/-- The complaint about a price, which is one about the whole request. -/
def priceComplaint (request : CreateRequest) : Option Complaint :=
  match request.price with
  | none => some ⟨"__all__", "price is required"⟩
  | some price =>
    if minPrice.le price && price.le maxPrice then none
    else some ⟨"__all__", "price must be between 0 and 1000000"⟩

/-- All complaints, in the order of the checks; every check is made whatever the others found. -/
def complaints (request : CreateRequest) : List Complaint :=
  [request.nameComplaint, request.vendorComplaint, request.descriptionComplaint,
    request.priceComplaint].filterMap id

/-- The new product that a request asks for, if no rule is broken. -/
def validate (request : CreateRequest) : Except CatalogError NewProduct :=
  match request.complaints with
  | [] =>
    .ok ⟨request.name, request.vendor, request.description.getD "", request.price.getD minPrice⟩
  | complaints => .error (.validation (Complaint.report complaints))

end CreateRequest

/-! ## Listings -/

/-- A number given as text, blanks around it aside; `none` for anything else. -/
def lenientInt (text : Option String) : Option Int :=
  text.bind fun t => Digits.int64? (trim t.toList)

/-- The window that a listing request asks for. -/
def listWindow (limit offset : Option String) : Pagination :=
  Pagination.clamped (lenientInt limit) (lenientInt offset)

/-- The answer to a listing request. -/
def ProductPage.json (page : ProductPage) (window : Pagination) : String :=
  writeObject [
    ("pagination", writeObject [("offset", writeNatural window.offset),
      ("limit", writeNatural window.limit), ("total", writeNatural page.total)]),
    ("products", writeList (page.items.map Product.json))]

end ProductCatalog
