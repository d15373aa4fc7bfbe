import ProductCatalog.Log.Basic

/-!
# The shutdown signal

All parts of a process share one shutdown signal. Whoever holds a *sender*
of it may trigger it, for good; whoever has *subscribed* stops once it is
triggered, or once no sender is left that could trigger it. It does not
matter whether a subscription was made before or after the triggering.

A process that listens triggers its signal at the first request of the
operating system to end, and leaves at once at the second.

## Main definitions

* `Shutdown` — the signal; `Shutdown.stopped` — whether subscribers stop.
* `Shutdown.notice` — what a request of the operating system does.
* `HttpServer.finish` — how a server ends once its subscription stops.
-/

namespace ProductCatalog

/-- A shutdown signal. -/
structure Shutdown where
  triggered : Bool := false
  /-- Number of senders that are left. -/
  senders : Nat := 1
deriving Repr, DecidableEq

namespace Shutdown

/-- Triggers the signal. -/
def trigger (s : Shutdown) : Shutdown := { s with triggered := true }

/-- Makes one more sender. -/
def clone (s : Shutdown) : Shutdown := { s with senders := s.senders + 1 }

/-- Gives all senders up. -/
def dropSenders (s : Shutdown) : Shutdown := { s with senders := 0 }

/-- Whether subscribers stop. -/
def stopped (s : Shutdown) : Bool := s.triggered || s.senders = 0

/-- The status with which a process leaves at a second request to end. -/
def hastyStatus : Nat := 1

/-- What a request to end does: the first triggers the signal, any further one makes the process
leave with a status. -/
def notice (s : Shutdown) : Shutdown × Option Nat :=
  if s.triggered then (s, some hastyStatus) else (s.trigger, none)

/-- What requests to end do, one after another: the signal after each of them up to the one that
makes the process leave, and the status with which it leaves, if it does. -/
def noticeAll (s : Shutdown) : (requests : Nat) → List Shutdown × Option Nat
  | 0 => ([], none)
  | n + 1 =>
    match s.notice with
    | (s, some status) => ([s], some status)
    | (s, none) =>
      let (states, status) := s.noticeAll n
      (s :: states, status)

@[simp]
theorem stopped_trigger (s : Shutdown) : s.trigger.stopped = true := rfl

@[simp]
theorem stopped_dropSenders (s : Shutdown) : s.dropSenders.stopped = true := by
  simp [stopped, dropSenders]

end Shutdown

/-! ## A server under the signal -/

namespace HttpServer

/-- The end of a server that has been told to stop. It waits for the requests that are still open
and need the times `open` from now on to be answered, but no longer than `grace`. The answer is
the time that this takes and the log entry about it. -/
def finish (grace : Nat) (openFor : List Nat) : Nat × LogEntry :=
  let longest := openFor.foldl max 0
  if longest ≤ grace then (longest, ⟨.info, "http server stopped", []⟩)
  else
    (grace, ⟨.warn, "graceful shutdown timed out; dropping open connections",
      [("grace_ms", LogEntry.number grace)]⟩)

end HttpServer

end ProductCatalog
