/-!
# Why a catalog operation fails

Every failure has a code and a detail, and is shown as the two joined by a
dash. A failed validation has one message for each violated rule, shown
separated by commas.
-/

namespace ProductCatalog

/-- Why a catalog operation fails. -/
inductive CatalogError
  | badRequest (detail : String)
  | conflict (detail : String)
  | notFound (what : String)
  | validation (messages : List String)
  | internal (detail : String)
deriving Repr, DecidableEq

namespace CatalogError

/-- The code of a failure. -/
def code : CatalogError → String
  | badRequest _ => "bad_request"
  | conflict _ => "conflict"
  | notFound _ => "not_found"
  | validation _ => "validation_error"
  | internal _ => "internal_server_error"

/-- The failure with a code. Only a failed validation has messages, and all others have a detail. -/
def ofCode? (code detail : String) (messages : List String) : Option CatalogError :=
  [badRequest detail, conflict detail, notFound detail, validation messages,
    internal detail].find? fun e => e.code = code

/-- What is said about a failure besides its code. -/
def detail : CatalogError → String
  | badRequest d | conflict d | notFound d | internal d => d
  | validation messages => String.intercalate "," messages

/-- The text of a failure. -/
def message (e : CatalogError) : String := e.code ++ " - " ++ e.detail

/-- The failure of a text that is no product id. -/
def invalidProductId : CatalogError := badRequest "invalid product id"

/-- The failure of a request whose body is not the JSON that was asked for. -/
def invalidBody : CatalogError := badRequest "invalid JSON body"

/-- The failure of a creation whose name and vendor are taken. -/
def duplicateProduct : CatalogError := conflict "product already exists"

/-- The failure of an operation on a product that is not there. -/
def noSuchProduct : CatalogError := notFound "product"

end CatalogError

end ProductCatalog
