import ProductCatalog.Event.Report
import ProductCatalog.Log.Signal
import ProductCatalog.Queue.Basic

/-!
# Signals about publications

The publication of an event is a span of work whose fields name the event.
In it a success is told for those who look closely, and a failure for
everybody.
-/

namespace ProductCatalog.LifecycleEvent

/-- Where publications are told from. -/
def publicationTarget : String := "catalog_infra::publisher"

/-- The span of work that the publication of an event is. -/
def publicationSpan (event : LifecycleEvent) : Span :=
  ⟨"publish", publicationTarget, ("kind", event.kind.label) :: event.fields, .info⟩

/-- The signal about a publication with a given result. -/
def publicationSignal (event : LifecycleEvent) : Except TransportError Unit → Signal
  | .ok () => event.publishedEntry.signal publicationTarget event.publicationSpan
  | .error e => .failure e.publishMessage publicationTarget event.publicationSpan

end ProductCatalog.LifecycleEvent
