import ProductCatalog.Database.Address
import ProductCatalog.Log.Basic

/-!
# Connecting to the database

An attempt to connect that fails is repeated after a pause, as often as the
settings allow; the first attempt does not count as a repetition. The
attempts are counted from one in 32 bits, as wide as the limit on
repetitions is. Under the greatest limit the count comes to its end before
the limit does: after the pause that follows the last attempt that it can
count, there is no next number, and the attempts break off.

What an attempt leads to is not decided here: the attempts are given as a
function of their numbers.

## Main definitions

* `ConnectFault` — why an attempt fails.
* `attempts` — the course of all attempts; `Course`, `Step`, `Ending`.
* `Course.log` — what the log says about them.
-/

namespace ProductCatalog.Database

/-- Why an attempt to connect fails. -/
inductive ConnectFault
  /-- The address of the database cannot be used. -/
  | badAddress (fault : AddressFault)
  /-- The server was not reached, or lost. -/
  | communication (cause : String)
  /-- The server refused. -/
  | refused (reason : String)
  /-- There was no connection in time. -/
  | timedOut
deriving Repr, DecidableEq

/-- The sentences that report why an attempt failed, each the cause of the one before it. -/
def ConnectFault.causes : ConnectFault → List String
  | badAddress fault => ("error with configuration: " ++ fault.message) :: fault.causes
  | communication cause => ["error communicating with database: " ++ cause, cause]
  | refused reason => ["error returned from database: " ++ reason, reason]
  | timedOut => ["pool timed out while waiting for an open connection"]

/-- The sentence that reports why an attempt failed. -/
def ConnectFault.message (fault : ConnectFault) : String := fault.causes.headD ""

/-- How a course of attempts ends. -/
inductive Ending (α : Type)
  /-- The latest attempt has succeeded. -/
  | connected (a : α)
  /-- The latest attempt has failed, and none is left. -/
  | failed (fault : ConnectFault)
  /-- The count of attempts is at its end. -/
  | brokenOff
deriving Repr, DecidableEq

/-- Something that is done for a connection. -/
inductive Step
  /-- An attempt, by its number, and the fault with which it fails. -/
  | attempt (number : UInt32) (fault : Option ConnectFault)
  /-- A pause, in milliseconds. -/
  | pause (time : Nat)
deriving Repr, DecidableEq

/-- A course of attempts. -/
structure Course (α : Type) where
  /-- What is done, in order. -/
  steps : List Step
  ending : Ending α
deriving Repr, DecidableEq

/-- The greatest number that counts an attempt. -/
def lastNumber : UInt32 := 0xFFFFFFFF

/-- The course of the attempts from the one with a given number on, if `limit` repetitions are
allowed and each is preceded by a pause. What has been done so far is given latest first. -/
def attemptsFrom {α : Type} (dial : UInt32 → Except ConnectFault α) (limit : UInt32) (delay : Nat)
    (number : UInt32) (done : List Step) : Course α :=
  match dial number with
  | .ok a => ⟨(.attempt number none :: done).reverse, .connected a⟩
  | .error fault =>
    let done := .attempt number (some fault) :: done
    if number ≤ limit then
      if h : number = lastNumber then ⟨(.pause delay :: done).reverse, .brokenOff⟩
      else attemptsFrom dial limit delay (number + 1) (.pause delay :: done)
    else ⟨done.reverse, .failed fault⟩
termination_by 2 ^ 32 - number.toNat
decreasing_by
  have hLess : number.toNat < 2 ^ 32 - 1 := by
    have hBound := number.toNat_lt
    have hNe : number.toNat ≠ 2 ^ 32 - 1 := fun e => h (UInt32.toNat_inj.1 e)
    omega
  rw [UInt32.toNat_add]
  simp only [UInt32.toNat_one]
  omega

/-- The course of all attempts, if `limit` repetitions are allowed and each is preceded by a
pause. -/
def attempts {α : Type} (dial : UInt32 → Except ConnectFault α) (limit : UInt32) (delay : Nat) :
    Course α :=
  attemptsFrom dial limit delay 1 []

/-- What the log says about a step. A failed attempt is told if it may be repeated. -/
def Step.entry? (limit : UInt32) : Step → Option LogEntry
  | attempt number none =>
    some ⟨.info, "connected to postgres", [("attempt", LogEntry.number number.toNat)]⟩
  | attempt number (some fault) =>
    if number ≤ limit then
      some ⟨.warn, "postgres connection failed; retrying",
        [("attempt", LogEntry.number number.toNat),
          ("max_retries", LogEntry.number limit.toNat), ("error", fault.message)]⟩
    else none
  | pause _ => none

/-- What the log says about a course of attempts. -/
def Course.log {α : Type} (c : Course α) (limit : UInt32) : List LogEntry :=
  c.steps.filterMap (Step.entry? limit)

end ProductCatalog.Database
