import ProductCatalog.Broker.Address
import ProductCatalog.Settings.Basic

/-!
# Connecting to the broker

A service is connected to the broker once the broker has confirmed that the
queue exists. The broker is asked at the endpoint that the settings name or,
if they name none, at the one in the URL of the queue. Without an address
for the queue nobody is asked.

What the broker answers is not decided here: `LookUp` stands for it.

## Main definitions

* `connect` — the connection that the settings of a broker lead to.
* `ConnectFault` — why there is none.
-/

namespace ProductCatalog.Broker

open Settings (BrokerSettings)

/-- A question to the broker at an endpoint in a region: whether a queue exists. The answer is no
with the cause that is given. -/
abbrev LookUp := (endpoint region queue : String) → Except String Unit

/-- Why a service is not connected to the broker. -/
inductive ConnectFault
  | badUrl (url : String) (fault : QueueAddress.Fault)
  | notReachable (queue cause : String)
deriving Repr, DecidableEq

/-- The sentence that reports why there is no connection. -/
def ConnectFault.message : ConnectFault → String
  | badUrl url fault => "invalid queue url " ++ url ++ ": " ++ fault.reason
  | notReachable queue cause => "queue " ++ queue ++ " is not reachable: " ++ cause

/-- A connection to a queue. -/
structure Connection where
  queueUrl : String
  region : String
  /-- Where the broker was asked, and about which queue. -/
  address : QueueAddress
deriving Repr, DecidableEq

/-- The log entry about a connection. -/
def Connection.entry (c : Connection) : LogEntry :=
  ⟨.info, "connected to SQS",
    [("region", c.region), ("endpoint", c.address.endpoint), ("queue", c.address.queue)]⟩

/-- Connects to the queue that settings name. -/
def connect (lookUp : LookUp) (s : BrokerSettings) : Except ConnectFault Connection :=
  match QueueAddress.ofUrl s.queueUrl with
  | .error fault => .error (.badUrl s.queueUrl fault)
  | .ok address =>
    let endpoint := s.endpointUrl.getD address.endpoint
    match lookUp endpoint s.region address.queue with
    | .error cause => .error (.notReachable address.queue cause)
    | .ok () => .ok ⟨s.queueUrl, s.region, ⟨endpoint, address.queue⟩⟩

end ProductCatalog.Broker
