import ProductCatalog.Text.Split

/-!
# Addresses of queues

The URL of a queue is a scheme, `://`, a host, and a path whose last segment
names the queue. The scheme and the host together are the endpoint at which
the broker is found. Slashes at the end of the path do not count, and the
segments before the last one, usually an account, are not looked at.

## Main definitions

* `QueueAddress.ofUrl` — the endpoint and the queue in a URL.
* `QueueAddress.Fault` — why a URL is refused.
-/

namespace ProductCatalog

open Text

/-- Where a queue is found. -/
structure QueueAddress where
  /-- The scheme and the host of the broker. -/
  endpoint : String
  /-- The name of the queue. -/
  queue : String
deriving Repr, DecidableEq

namespace QueueAddress

/-- Why a URL leads to no queue. -/
inductive Fault
  | noScheme
  | noPath
  | noHost
  | noName
deriving Repr, DecidableEq

/-- What a URL lacks. -/
def Fault.reason : Fault → String
  | noScheme => "missing scheme"
  | noPath => "missing queue path"
  | noHost => "missing host"
  | noName => "missing queue name"

/-- What ends the scheme of a URL. -/
def schemeEnd : List Char := [':', '/', '/']

/-- The last segment of a path, slashes at its end apart. -/
def lastSegment (path : List Char) : List Char := lastPart '/' (dropLastAll '/' path)

/-- The address that a URL spells. -/
def ofUrl (url : String) : Except Fault QueueAddress :=
  match cutFirst? schemeEnd url.toList with
  | none => .error .noScheme
  | some (scheme, rest) =>
    match cutFirst? ['/'] rest with
    | none => .error .noPath
    | some (host, path) =>
      if host.isEmpty then .error .noHost
      else if (lastSegment path).isEmpty then .error .noName
      else .ok ⟨String.ofList (scheme ++ schemeEnd ++ host), String.ofList (lastSegment path)⟩

end QueueAddress

end ProductCatalog
