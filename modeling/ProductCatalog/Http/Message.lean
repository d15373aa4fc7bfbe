import ProductCatalog.Http.MediaType
import ProductCatalog.Json.Printer
import ProductCatalog.Product.Error
import ProductCatalog.Product.Id
import ProductCatalog.Text.Blank

/-!
# Requests and responses

A request has a method, a target, headers and a body. The target is a path
with an optional query; what follows a `#` does not belong to it. Names of
headers are compared without regard to case, and of several headers with
one name the first counts.

A response has a status, and possibly a content type, a list of allowed
methods and a body.

## Main definitions

* `Request`, `Request.path`, `Request.query` and `Request.header?`.
* `Response`, `failure` — answers and refusals.
-/

namespace ProductCatalog.Http

open Text

/-- An HTTP request. -/
structure Request where
  method : String
  target : String
  headers : List (String × String) := []
  body : Bytes := []

namespace Request

/-- The target up to a `#`. -/
private def reference (r : Request) : List Char := r.target.toList.takeWhile (· != '#')

/-- The path of the target. -/
def path (r : Request) : List Char := r.reference.takeWhile (· != '?')

/-- The query of the target; empty if there is none. -/
def query (r : Request) : List Char := (r.reference.dropWhile (· != '?')).drop 1

/-- The first header with a name, which is given in lower case. -/
def header? (r : Request) (name : String) : Option String :=
  (r.headers.find? fun h => h.1.toList.map Char.toLower = name.toList).map (·.2)

/-- The length of the body that the request declares, if it declares one. -/
def declaredLength? (r : Request) : Option Nat :=
  (r.header? "content-length").bind fun v => Digits.unsigned? 64 v.toList

/-- Whether the request declares its body as JSON. -/
def declaresJson (r : Request) : Bool :=
  match r.header? "content-type" with
  | some v => ((MediaType.parse? v).map MediaType.isJson).getD false
  | none => false

end Request

/-! ## Responses -/

/-- An HTTP response. -/
structure Response where
  status : Nat
  contentType : Option String := none
  allow : Option String := none
  body : String := ""
deriving Repr, DecidableEq

namespace Response

/-- The content type of JSON. -/
def jsonType : String := "application/json"

/-- The content type of plain text. -/
def textType : String := "text/plain; charset=utf-8"

/-- A response with a JSON body. -/
def json (status : Nat) (body : String) : Response :=
  { status, contentType := some jsonType, body }

/-- A response with a text. -/
def text (status : Nat) (body : String) : Response :=
  { status, contentType := some textType, body }

/-- A response without a body. -/
def empty (status : Nat) : Response := { status }

/-- A refusal of a method. -/
def notAllowed (allow : String) : Response := { status := 405, allow := some allow }

/-- A response without its body, as the method `HEAD` asks for it. -/
def withoutBody (r : Response) : Response := { r with body := "" }

/-- A response that names an error. -/
def error (status : Nat) (message : String) : Response :=
  json status (Json.writeObject [("error", Json.writeText message)])

end Response

/-- The status of a failure. -/
def status : CatalogError → Nat
  | .badRequest _ | .validation _ => 400
  | .notFound _ => 404
  | .conflict _ => 409
  | .internal _ => 500

/-- The response to a request that failed. -/
def failure (e : CatalogError) : Response := .error (status e) e.message

/-- The health of a service: its name and version. -/
def health (service : String) : Response :=
  .json 200 (Json.writeObject
    [("name", Json.writeText service), ("version", Json.writeText "0.1.0")])

end ProductCatalog.Http
