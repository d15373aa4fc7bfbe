import ProductCatalog.Event.Basic
import ProductCatalog.Json.Printer
import ProductCatalog.Json.Record
import ProductCatalog.Text.Blank

/-!
# The envelope of an event

An event travels as a JSON object with two strings: its kind under
`event_type` and the product's id under `product_id`. Writing has one form.
Reading takes every JSON spelling of it, members in either order, further
members, and every spelling of an id.

A body that is no event is refused for the first of four reasons that
applies: it is blank; it is no envelope; its kind is unknown, whatever the
id is; its id is none.

## Main definitions

* `LifecycleEvent.encode` — the one written form.
* `decode` — the reading; `DecodeError` — the reasons.
-/

namespace ProductCatalog

open Json Text

/-- The envelope of an event. -/
def LifecycleEvent.envelope (event : LifecycleEvent) : String :=
  writeObject [("event_type", writeText event.kind.wireName),
    ("product_id", writeText event.productId.text)]

/-- The body of the message that carries an event. -/
def LifecycleEvent.encode (event : LifecycleEvent) : Bytes := Text.encode event.envelope

/-- Why a body is no event. -/
inductive DecodeError
  /-- Nothing but ASCII blanks. -/
  | empty
  /-- No JSON object, or array, with the two strings of an envelope. -/
  | notEnvelope (fault : Json.Fault)
  /-- A kind that has no meaning. -/
  | unknownEventType (name : String)
  /-- An id that is none. -/
  | badProductId (fault : ProductId.Fault)
deriving Repr, DecidableEq

/-- The sentence that reports why `body` is no event. -/
def DecodeError.message (body : Bytes) : DecodeError → String
  | empty => "message body is empty"
  | notEnvelope fault => "malformed event envelope: " ++ fault.message body
  | unknownEventType name => "unknown event type: " ++ name
  | badProductId fault => "malformed event envelope: product_id: " ++ fault.message

/-- An envelope with its two strings as they stand. -/
structure Envelope where
  eventType : Option String := none
  productId : Option String := none
deriving Repr, DecidableEq

/-- The members of an envelope. -/
def Envelope.members : List (Member Envelope) := [
  { name := "event_type", isSet := (·.eventType.isSome)
    read := fun e bytes =>
      (readText bytes).map fun (v, r) => ({ e with eventType := some v }, r) },
  { name := "product_id", isSet := (·.productId.isSome)
    read := fun e bytes =>
      (readText bytes).map fun (v, r) => ({ e with productId := some v }, r) }]

/-- Reads an envelope that is all of a body. -/
def Envelope.read (body : Bytes) : Except Json.Fault Envelope :=
  wholeText (readRecord "struct WireIn" Envelope.members {}) body

/-- The event that the two strings of an envelope denote. -/
def Envelope.event (eventType productId : String) : Except DecodeError LifecycleEvent :=
  match EventKind.ofWireName? eventType with
  | none => .error (.unknownEventType eventType)
  | some kind =>
    match ProductId.parse productId with
    | .ok id => .ok ⟨kind, id⟩
    | .error fault => .error (.badProductId fault)

/-- The event that a body carries. -/
def decode (body : Bytes) : Except DecodeError LifecycleEvent :=
  if body.all isBlankByte then .error .empty
  else
    match Envelope.read body with
    | .error fault => .error (.notEnvelope fault)
    | .ok envelope => Envelope.event (envelope.eventType.getD "") (envelope.productId.getD "")

end ProductCatalog
