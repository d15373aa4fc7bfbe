import ProductCatalog.Event.Basic
import ProductCatalog.Log.Basic

/-!
# Events in the log

Log entries about an event name its kind and its product. The entry about a
publication is the same whoever publishes.
-/

namespace ProductCatalog.LifecycleEvent

/-- The fields by which log entries name an event. -/
def fields (event : LifecycleEvent) : List (String × String) :=
  [("event_type", event.kind.wireName), ("product_id", event.productId.text)]

/-- The log entry about a publication. -/
def publishedEntry (event : LifecycleEvent) : LogEntry :=
  ⟨.debug, "lifecycle event published", event.fields⟩

end ProductCatalog.LifecycleEvent
