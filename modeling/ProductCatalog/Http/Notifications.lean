import ProductCatalog.Http.Message

/-!
# The notifications application

The application that runs beside the consumer of events answers health
checks and nothing else.
-/

namespace ProductCatalog.Http.Notifications

/-- The name of the service. -/
def serviceName : String := "notifications-service"

/-- The path of the health check. -/
def healthPath : String := "/notifications-api/v1/health"

/-- Answers a request. -/
def respond (r : Request) : Response :=
  if r.path = healthPath.toList then
    if r.method = "GET" then Http.health serviceName
    else if r.method = "HEAD" then (Http.health serviceName).withoutBody
    else .notAllowed "GET,HEAD"
  else .empty 404

end ProductCatalog.Http.Notifications
