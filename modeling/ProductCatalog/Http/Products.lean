import ProductCatalog.Catalog.Call
import ProductCatalog.Http.Message
import ProductCatalog.Product.Request
import ProductCatalog.Text.Form

/-!
# The products application

The application answers health checks, lists products, creates one and
deletes one. Paths must match exactly, letter by letter, and a path that
matches answers only its own methods; `HEAD` stands for `GET` without a
body.

The size of a body is limited twice. A declared length above the limit is
refused before anything else is looked at. A body that turns out to be
longer than the limit, or than the length declared for it, or than two
mebibytes, is a body that cannot be read.

A creation request must declare JSON. Whatever keeps its body from being
read, the answer is the same; what stands behind the JSON value in the
body is not looked at.

## Main definitions

* `Route`, `Route.ofPath?` — the paths.
* `Demand`, `demand` — what a request comes to, before the catalog is asked.
* `respond` — the answer to a request, with its effect on the catalog.
-/

namespace ProductCatalog.Http.Products

open Text

/-- The name of the service. -/
def serviceName : String := "products-service"

/-- The start of all paths. -/
def basePath : String := "/products-api/v1"

/-- The usual limit of a body in bytes. -/
def defaultBodyLimit : Nat := 1048576

/-- The length in bytes above which no body is read, whatever limit is configured. -/
def readerLimit : Nat := 2097152

/-- What a path denotes. -/
inductive Route
  | health
  | products
  /-- A product, by the part of the path that names it. -/
  | product (name : List Char)
deriving Repr, DecidableEq

/-- What a path denotes, if anything. -/
def Route.ofPath? (path : List Char) : Option Route :=
  let health := (basePath ++ "/health").toList
  let products := (basePath ++ "/products").toList
  if path = health then some .health
  else if path = products then some .products
  else if (products ++ ['/']).isPrefixOf path then
    let name := path.drop (products.length + 1)
    if name.isEmpty || name.contains '/' then none else some (.product name)
  else none

/-- The methods that a path answers. -/
def Route.allow : Route → String
  | health => "GET,HEAD"
  | products => "POST,GET,HEAD"
  | product _ => "DELETE"

/-! ## What a request demands -/

/-- What a request comes to, before the catalog is asked. -/
inductive Demand
  /-- The answer is settled. -/
  | settled (response : Response)
  /-- The request is refused. -/
  | refused (error : CatalogError)
  | create (input : NewProduct)
  | delete (id : ProductId)
  | list (window : Pagination)
  /-- Another demand, whose answer is to go without its body. -/
  | brief (demand : Demand)

/-- Whether a body can be read within the limits. -/
def bodyFits (limit : Nat) (r : Request) : Bool :=
  r.body.length ≤ min limit (min readerLimit (r.declaredLength?.getD limit))

/-- The creation request in the body of a request. -/
def readCreation (limit : Nat) (r : Request) : Except CatalogError CreateRequest :=
  if r.declaresJson && bodyFits limit r then
    match CreateRequest.read r.body with
    | .ok (request, _) => .ok request
    | .error _ => .error .invalidBody
  else .error .invalidBody

/-- The new product that a request asks for. -/
def newProduct (limit : Nat) (r : Request) : Except CatalogError NewProduct := do
  (← readCreation limit r).validate

/-- The demand to create a product. -/
def creation (limit : Nat) (r : Request) : Demand :=
  match newProduct limit r with
  | .error e => .refused e
  | .ok input => .create input

/-- The window that a query asks for; `error` names a parameter that is given twice. -/
def window (query : List Char) : Except String Pagination :=
  let pairs := formPairs query
  let values (name : String) : List String := (pairs.filter (·.1 = name)).map (·.2)
  -- The second occurrence that comes first decides which name is reported.
  let twice := (List.range pairs.length).findSome? fun i =>
    match pairs[i]? with
    | some (name, _) =>
      if (name = "limit" || name = "offset") && (pairs.take i).any (·.1 = name) then some name
      else none
    | none => none
  match twice with
  | some name => .error name
  | none => .ok (listWindow (values "limit").head? (values "offset").head?)

/-- The demand to list products. -/
def listing (r : Request) : Demand :=
  match window r.query with
  | .error name =>
    .settled
      (.text 400 ("Failed to deserialize query string: duplicate field \x60" ++ name ++ "\x60"))
  | .ok w => .list w

/-- The demand to delete the product that a part of the path names. -/
def deletion (name : List Char) : Demand :=
  match percentText name with
  | .error _ => .settled (.text 400 "Invalid URL: Invalid UTF-8 in \x60id\x60")
  | .ok text =>
    match ProductId.parse? text with
    | none => .refused .invalidProductId
    | some id => .delete id

/-- The demand of a method on a path that denotes something. -/
def dispatch (limit : Nat) (r : Request) (route : Route) (method : String) : Demand :=
  let demand? : Option Demand :=
    match route with
    | .health => if method = "GET" then some (.settled (Http.health serviceName)) else none
    | .products =>
      if method = "GET" then some (listing r)
      else if method = "POST" then some (creation limit r)
      else none
    | .product name => if method = "DELETE" then some (deletion name) else none
  demand?.getD (.settled (.notAllowed route.allow))

/-- The demand of a request. -/
def demand (limit : Nat) (r : Request) : Demand :=
  if limit < r.declaredLength?.getD 0 then .settled (.text 413 "length limit exceeded")
  else
    match Route.ofPath? r.path with
    | some route =>
      if r.method = "HEAD" then .brief (dispatch limit r route "GET")
      else dispatch limit r route r.method
    | none => .settled (.empty 404)

/-! ## Answers -/

/-- Answers with a failure; an internal one is logged. -/
def fail (c : Catalog) (e : CatalogError) : Catalog × Response :=
  match e with
  | .internal _ => (c.tell .error "request failed" [("error", e.message)], failure e)
  | _ => (c, failure e)

/-- Answers with what an operation of the catalog has given. -/
def reply {α : Type} (success : α → Response) :
    Catalog × Except CatalogError α → Catalog × Response
  | (c, .ok a) => (c, success a)
  | (c, .error e) => fail c e

/-- A catalog as requests find it: what each operation leaves of it, and gives. -/
structure Service where
  /-- What is left if nothing is asked of the catalog. -/
  catalog : Catalog
  create : NewProduct → Catalog × Except CatalogError Product
  delete : ProductId → Catalog × Except CatalogError Unit
  list : Pagination → Catalog × Except CatalogError ProductPage

/-- A catalog whose operations run undisturbed. -/
def undisturbed (c : Catalog) : Service := ⟨c, c.create, c.delete, c.list⟩

/-- Answers a demand. -/
def Demand.answer (s : Service) : Demand → Catalog × Response
  | settled response => (s.catalog, response)
  | refused e => fail s.catalog e
  | create input => reply (fun product => .json 201 product.json) (s.create input)
  | delete id => reply (fun () => .empty 204) (s.delete id)
  | list w => reply (fun page => .json 200 (page.json w)) (s.list w)
  | brief demand =>
    let (c, response) := demand.answer s
    (c, response.withoutBody)

/-- Answers a request. -/
def respond (limit : Nat) (c : Catalog) (r : Request) : Catalog × Response :=
  (demand limit r).answer (undisturbed c)

end ProductCatalog.Http.Products
