import ProductCatalog.Json.Printer
import ProductCatalog.Json.Record
import ProductCatalog.Number.Decimal.Parser
import ProductCatalog.Product.Basic
import ProductCatalog.Time.Instant.Parser

/-!
# Products in JSON

How ids, prices, instants, products and listing windows are written as
JSON and read from it. Ids and instants are strings, prices are numbers.
A price is also read from a string that holds a decimal. Windows are read
as they are, without bringing them into bounds.
-/

namespace ProductCatalog

open Json Text

/-! ## Reading -/

/-- Reads a product id. -/
def ProductId.read : Reader ProductId :=
  readTextAs "a formatted UUID string" fun text =>
    match ProductId.parse text with
    | .ok id => .ok id
    | .error fault => .error (.refused ("UUID parsing failed: " ++ fault.message))

/-- Reads an instant. -/
def Instant.read : Reader Instant :=
  readTextAs "an RFC 3339 formatted date and time string" fun text =>
    match Instant.parse text with
    | .ok t => .ok t
    | .error fault => .error (.refused fault.message)

/-- How a message names the expectation of a price. -/
def Decimal.expectation : String := "a Decimal type representing a fixed-point number"

/-- The decimal that a JSON number stands for; a float stands for its shortest decimal text. -/
def Decimal.ofNumber? : Number → Option Decimal
  | .natural n => Decimal.ofParts? false n 0
  | .negative n => Decimal.ofParts? (n < 0) n.natAbs 0
  | .float x => Decimal.parsePlain? (Binary64.Shortest.plain x).toList

/-- Reads a price: a number, or a string that holds a decimal. -/
def Decimal.read : Reader Decimal := fun bytes =>
  let mismatch (found : Found) (rest : Bytes) : Except Fault (Decimal × Bytes) :=
    failAt (.wrongType found Decimal.expectation) rest
  let accept (n : Number) (rest : Bytes) : Except Fault (Decimal × Bytes) :=
    match Decimal.ofNumber? n with
    | some d => .ok (d, rest)
    | none => failAt (.wrongValue n.found Decimal.expectation) rest
  match skipBlanks bytes with
  | [] => failNext .endInValue []
  | b :: rest =>
    if b = 0x2D then do
      let (n, rest) ← readNumber false rest
      accept n rest
    else if Json.isDigit b then do
      let (n, rest) ← readNumber true (b :: rest)
      accept n rest
    else if b = 0x22 then do
      let (text, rest) ← readString rest
      match Decimal.parse? text with
      | some d => pure (d, rest)
      | none => failAt (.wrongValue (.text text) Decimal.expectation) rest
    else if b = 0x5B then mismatch .sequence (afterList rest)
    else if b = 0x7B then mismatch .map (afterObject rest)
    else wrongTypeHere Decimal.expectation (b :: rest)

/-- Reads a value that may be `null`. -/
def readOptional {α : Type} (reader : Reader α) : Reader (Option α) := fun bytes =>
  match skipBlanks bytes with
  | [] => failNext .endInValue []
  | b :: rest =>
    if b = 0x6E then (readIdent nullTail rest).map fun (_, rest) => (none, rest)
    else (reader (b :: rest)).map fun (value, rest) => (some value, rest)

/-- A partly read new product. -/
structure NewProduct.Draft where
  name : Option String := none
  vendor : Option String := none
  description : Option String := none
  price : Option Decimal := none

/-- The members of a new product. -/
def NewProduct.members : List (Member NewProduct.Draft) := [
  { name := "name", isSet := (·.name.isSome)
    read := fun d bytes => (readText bytes).map fun (v, r) => ({ d with name := some v }, r) },
  { name := "vendor", isSet := (·.vendor.isSome)
    read := fun d bytes => (readText bytes).map fun (v, r) => ({ d with vendor := some v }, r) },
  { name := "description", isSet := (·.description.isSome)
    read := fun d bytes =>
      (readText bytes).map fun (v, r) => ({ d with description := some v }, r) },
  { name := "price", isSet := (·.price.isSome)
    read := fun d bytes =>
      (Decimal.read bytes).map fun (v, r) => ({ d with price := some v }, r) }]

/-- Reads a new product, all of whose members are required. -/
def NewProduct.read : Reader NewProduct := fun bytes =>
  (readRecord "struct NewProduct" NewProduct.members {} bytes).map fun (d, rest) =>
    (⟨d.name.getD "", d.vendor.getD "", d.description.getD "", d.price.getD default⟩, rest)

/-- A partly read product. -/
structure Product.Draft where
  id : Option ProductId := none
  name : Option String := none
  vendor : Option String := none
  description : Option String := none
  price : Option Decimal := none
  createdAt : Option Instant := none
  updatedAt : Option Instant := none

/-- The members of a product. -/
def Product.members : List (Member Product.Draft) := [
  { name := "id", isSet := (·.id.isSome)
    read := fun d bytes => (ProductId.read bytes).map fun (v, r) => ({ d with id := some v }, r) },
  { name := "name", isSet := (·.name.isSome)
    read := fun d bytes => (readText bytes).map fun (v, r) => ({ d with name := some v }, r) },
  { name := "vendor", isSet := (·.vendor.isSome)
    read := fun d bytes => (readText bytes).map fun (v, r) => ({ d with vendor := some v }, r) },
  { name := "description", isSet := (·.description.isSome)
    read := fun d bytes =>
      (readText bytes).map fun (v, r) => ({ d with description := some v }, r) },
  { name := "price", isSet := (·.price.isSome)
    read := fun d bytes =>
      (Decimal.read bytes).map fun (v, r) => ({ d with price := some v }, r) },
  { name := "created_at", isSet := (·.createdAt.isSome)
    read := fun d bytes =>
      (Instant.read bytes).map fun (v, r) => ({ d with createdAt := some v }, r) },
  { name := "updated_at", isSet := (·.updatedAt.isSome)
    read := fun d bytes =>
      (Instant.read bytes).map fun (v, r) => ({ d with updatedAt := some v }, r) }]

/-- Reads a product, all of whose members are required. -/
def Product.read : Reader Product := fun bytes =>
  (readRecord "struct Product" Product.members {} bytes).map fun (d, rest) =>
    (⟨d.id.getD default, d.name.getD "", d.vendor.getD "", d.description.getD "",
      d.price.getD default, d.createdAt.getD default, d.updatedAt.getD default⟩, rest)

/-- A partly read window. -/
structure Pagination.Draft where
  limit : Option Nat := none
  offset : Option Nat := none

/-- The members of a window. -/
def Pagination.members : List (Member Pagination.Draft) := [
  { name := "limit", isSet := (·.limit.isSome)
    read := fun d bytes => (readNatural bytes).map fun (v, r) => ({ d with limit := some v }, r) },
  { name := "offset", isSet := (·.offset.isSome)
    read := fun d bytes =>
      (readNatural bytes).map fun (v, r) => ({ d with offset := some v }, r) }]

/-- Reads a window as it is. -/
def Pagination.read : Reader Pagination := fun bytes =>
  (readRecord "struct Pagination" Pagination.members {} bytes).map fun (d, rest) =>
    (⟨d.limit.getD 0, d.offset.getD 0⟩, rest)

/-! ## Writing -/

/-- A product id as a JSON string. -/
def ProductId.json (id : ProductId) : String := writeText id.text

/-- An instant as a JSON string. -/
def Instant.json (t : Instant) : String := writeText t.text

/-- A price as a JSON number. -/
def Decimal.json (d : Decimal) : String := Binary64.Shortest.json d.toBinary64

/-- A window as a JSON object. -/
def Pagination.json (p : Pagination) : String :=
  writeObject [("limit", writeNatural p.limit), ("offset", writeNatural p.offset)]

/-- A new product as a JSON object. -/
def NewProduct.json (p : NewProduct) : String :=
  writeObject [("name", writeText p.name), ("vendor", writeText p.vendor),
    ("description", writeText p.description), ("price", p.price.json)]

/-- A product as a JSON object. -/
def Product.json (p : Product) : String :=
  writeObject [("id", p.id.json), ("name", writeText p.name), ("vendor", writeText p.vendor),
    ("description", writeText p.description), ("price", p.price.json),
    ("created_at", p.createdAt.json), ("updated_at", p.updatedAt.json)]

end ProductCatalog
