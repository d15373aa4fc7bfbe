import ProductCatalog.Catalog.Call

/-!
# Calls that run together

Calls of any kind may run together. A *workload* is a catalog with the
calls in progress, and a *schedule* names, step by step, the call that
moves next. Every interleaving is a schedule.

`createTogether` runs creations on one thread that gives way once inside
every send: each call runs until it has asked for a send, and the calls
that have given way are resumed in the opposite order.

## Main definitions

* `Call`, `Workload`, `Workload.run` — calls under a schedule.
* `Catalog.createTogether` — creations on a thread that gives way at sends.
-/

namespace ProductCatalog

/-- A call in progress. -/
inductive Call
  | create (call : CreateCall)
  | delete (call : DeleteCall)
  /-- A listing that has not been answered. -/
  | list (window : Pagination)
  /-- A listing that has been answered. -/
  | listed (result : Except CatalogError ProductPage)

/-- Makes the next step of a call. -/
def Call.step (c : Catalog) : Call → Catalog × Call
  | create call => let (c, call) := call.step c; (c, create call)
  | delete call => let (c, call) := call.step c; (c, delete call)
  | list window => let (c, result) := c.list window; (c, listed result)
  | listed result => (c, listed result)

/-- A catalog with calls in progress. -/
structure Workload where
  catalog : Catalog
  calls : List Call

/-- Lets one call make a step; a number that names no call changes nothing. -/
def Workload.step (w : Workload) (i : Nat) : Workload :=
  match w.calls[i]? with
  | some call =>
    let (c, call) := call.step w.catalog
    { catalog := c, calls := w.calls.set i call }
  | none => w

/-- Runs a schedule. -/
def Workload.run (w : Workload) (schedule : List Nat) : Workload := schedule.foldl Workload.step w

/-! ## Giving way at sends -/

/-- A creation on a thread that gives way at sends. -/
structure YieldingCall where
  index : Nat
  call : CreateCall
  /-- A send has been asked for, and the thread has given way. -/
  asked : Bool := false

namespace YieldingCall

/--
Runs a call until it asks for its next send or ends. The send that it has
asked for before is made first. The request leaves its mark at once.
-/
def run : (fuel : Nat) → Catalog → YieldingCall → Catalog × YieldingCall
  | 0, c, y => (c, y)
  | fuel + 1, c, y =>
    match y.call.next? with
    | none => (c, y)
    | some .send =>
      if y.asked then
        let trace := c.trace
        let (c, call) := y.call.step c
        run fuel { c with trace := trace } { y with call := call, asked := false }
      else (c.mark .send, { y with asked := true })
    | some _ =>
      let (c, call) := y.call.step c
      run fuel c { y with call := call }

/-- Runs calls in order; returns those that have ended and those that have given way. -/
def runAll : Catalog → List YieldingCall → Catalog × List YieldingCall × List YieldingCall
  | c, [] => (c, [], [])
  | c, y :: rest =>
    let (c, y) := y.run 6 c
    let (c, ended, waiting) := runAll c rest
    if y.asked then (c, ended, y :: waiting) else (c, y :: ended, waiting)

/-- Runs calls in rounds, each round in the opposite order of giving way in the one before. -/
def rounds : (fuel : Nat) → Catalog → List YieldingCall → List YieldingCall →
    Catalog × List YieldingCall
  | 0, c, ended, waiting => (c, ended ++ waiting)
  | fuel + 1, c, ended, waiting =>
    if waiting.isEmpty then (c, ended)
    else
      let (c, ended', waiting) := runAll c waiting
      rounds fuel c (ended ++ ended') waiting.reverse

end YieldingCall

/-- Creates products together. A creation gives way at most twice, so three rounds end all. -/
def Catalog.createTogether (c : Catalog) (inputs : List NewProduct) :
    Catalog × List (Except CatalogError Product) :=
  let calls := inputs.zipIdx.map fun (input, i) =>
    { index := i, call := CreateCall.start input : YieldingCall }
  let (c, ended) := YieldingCall.rounds 4 c [] calls
  let sorted := ended.mergeSort fun a b => a.index ≤ b.index
  (c, sorted.filterMap fun y => y.call.result?)

end ProductCatalog
