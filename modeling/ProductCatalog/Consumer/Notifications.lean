import ProductCatalog.Consumer.Handler

/-!
# Notifications of events

The notification service has a method for each kind of event, which counts
an event and reports its product in the log. Each kind has a handler of its
own, which passes the product of an event to the method and succeeds at once.

## Main definitions

* `NotificationService.productCreated`, `productDeleted` — the methods.
* `Notifications.handlers` — the handlers in their register.
-/

namespace ProductCatalog

namespace Notifications

/-- Where events are reported from. -/
def target : String := "catalog_notifications::service"

/-- The log entry that reports an event. -/
def entry (event : LifecycleEvent) : LogEntry :=
  let message := match event.kind with
    | .created => "product created"
    | .deleted => "product deleted"
  ⟨.info, message, [("product_id", event.productId.text)]⟩

end Notifications

namespace NotificationService

/-- A method of the service. None ever fails. -/
structure Method where
  /-- What becomes of the service. -/
  count : NotificationService → NotificationService
  /-- What the log is told about a product. -/
  entry : ProductId → LogEntry

/-- Reports that a product has been created. -/
def productCreated : Method where
  count service := { service with created := service.created + 1 }
  entry id := Notifications.entry ⟨.created, id⟩

/-- Reports that a product has been deleted. -/
def productDeleted : Method where
  count service := { service with deleted := service.deleted + 1 }
  entry id := Notifications.entry ⟨.deleted, id⟩

end NotificationService

namespace Notifications

/-- The handler that passes the products of events to a method. -/
def handlerOf (method : NotificationService.Method) : Handler where
  report event := [method.entry event.productId]
  effect _ := method.count

/-- The handler of creations. -/
def createdHandler : Handler := handlerOf NotificationService.productCreated

/-- The handler of deletions. -/
def deletedHandler : Handler := handlerOf NotificationService.productDeleted

/-- The handlers of both kinds. -/
def handlers : Registry Handler :=
  (({} : Registry Handler).registerAll
    [(.created, createdHandler), (.deleted, deletedHandler)]).1

end Notifications

end ProductCatalog
