import ProductCatalog.Text.Digits

/-!
# Instants

Products carry the instant of their creation and of their last change.
An instant is a count of seconds since 1970-01-01T00:00:00 UTC with
nanoseconds on top; a leap second is the second before it with a full
second of nanoseconds more.

The calendar is the proleptic Gregorian one. `daysBefore` counts the days
before a date by the usual formula on years that begin in March, so that
the leap day is the last day of its year, and `dateOf` undoes it.

An instant is written in UTC with a `Z`, and with three, six or nine
places of seconds, the fewest that keep it, or none. Years outside four
digits carry a sign.
-/

namespace ProductCatalog

/-- A point in time, to the nanosecond. -/
structure Instant where
  /-- Whole seconds since the start of 1970 in UTC. -/
  seconds : Int
  /-- Nanoseconds on top, at least `10 ^ 9` within a leap second. -/
  nanos : Nat
deriving Repr, DecidableEq, Inhabited

namespace Instant

/-- Chronological order. -/
def le (a b : Instant) : Bool :=
  a.seconds < b.seconds || (a.seconds = b.seconds && a.nanos ≤ b.nanos)

section Order

variable {a b c : Instant}

theorem le_iff : a.le b = true ↔
    a.seconds < b.seconds ∨ (a.seconds = b.seconds ∧ a.nanos ≤ b.nanos) := by
  simp [le]

@[simp] theorem le_refl (a : Instant) : a.le a = true := by
  rw [le_iff]
  omega

theorem le_total (a b : Instant) : (a.le b || b.le a) = true := by
  rw [Bool.or_eq_true, le_iff, le_iff]
  omega

theorem le_trans (hab : a.le b = true) (hbc : b.le c = true) : a.le c = true := by
  rw [le_iff] at hab hbc ⊢
  omega

theorem le_antisymm (hab : a.le b = true) (hba : b.le a = true) : a = b := by
  rw [le_iff] at hab hba
  have hseconds : a.seconds = b.seconds := by omega
  have hnanos : a.nanos = b.nanos := by omega
  cases a
  cases b
  exact congr (congrArg Instant.mk hseconds) hnanos

end Order

/-- A calendar date. -/
structure Date where
  year : Int
  month : Nat
  day : Nat
deriving Repr, DecidableEq

/-- Whether a year has a 29th of February. -/
def isLeapYear (y : Int) : Bool := y % 4 = 0 && (y % 100 != 0 || y % 400 = 0)

/-- Number of days of a month; 0 for a number that names no month. -/
def daysInMonth (y : Int) (m : Nat) : Nat :=
  match m with
  | 1 | 3 | 5 | 7 | 8 | 10 | 12 => 31
  | 4 | 6 | 9 | 11 => 30
  | 2 => if isLeapYear y then 29 else 28
  | _ => 0

/-- Days from the start of 1970 to a date. -/
def daysBefore (d : Date) : Int :=
  let y := if d.month ≤ 2 then d.year - 1 else d.year
  let era := Int.fdiv y 400
  let yearOfEra := y - era * 400
  let monthFromMarch : Int := if d.month ≤ 2 then d.month + 9 else d.month - 3
  let dayOfYear := Int.fdiv (153 * monthFromMarch + 2) 5 + d.day - 1
  let dayOfEra := yearOfEra * 365 + yearOfEra / 4 - yearOfEra / 100 + dayOfYear
  era * 146097 + dayOfEra - 719468

/-- The date that lies a number of days after the start of 1970. -/
def dateOf (days : Int) : Date :=
  let z := days + 719468
  let era := Int.fdiv z 146097
  let dayOfEra := z - era * 146097
  let yearOfEra := (dayOfEra - dayOfEra / 1460 + dayOfEra / 36524 - dayOfEra / 146096) / 365
  let dayOfYear := dayOfEra - (365 * yearOfEra + yearOfEra / 4 - yearOfEra / 100)
  let monthFromMarch := (5 * dayOfYear + 2) / 153
  let day := dayOfYear - (153 * monthFromMarch + 2) / 5 + 1
  let month := if monthFromMarch < 10 then monthFromMarch + 3 else monthFromMarch - 9
  let year := yearOfEra + era * 400
  ⟨if month ≤ 2 then year + 1 else year, month.toNat, day.toNat⟩

/-- The least year an instant may lie in. -/
def minYear : Int := -262143

/-- The greatest year an instant may lie in. -/
def maxYear : Int := 262142

open Text.Digits in
/-- A year with at least four digits, with a sign unless it has exactly four. -/
def yearText (y : Int) : List Char :=
  if 0 ≤ y && y ≤ 9999 then padded 4 y.natAbs
  else (if y < 0 then '-' else '+') :: padded 4 y.natAbs

open Text.Digits in
/-- The fraction of a second, with as many groups of three places as it needs. -/
def fractionText (nanos : Nat) : List Char :=
  if nanos = 0 then []
  else if nanos % 1000000 = 0 then '.' :: padded 3 (nanos / 1000000)
  else if nanos % 1000 = 0 then '.' :: padded 6 (nanos / 1000)
  else '.' :: padded 9 nanos

open Text.Digits in
/-- The instant in UTC. -/
def text (t : Instant) : String :=
  let date := dateOf (Int.fdiv t.seconds 86400)
  let clock := (Int.fmod t.seconds 86400).toNat
  let leap := 1000000000 ≤ t.nanos
  let second := if leap then clock % 60 + 1 else clock % 60
  let nanos := if leap then t.nanos - 1000000000 else t.nanos
  String.ofList <|
    yearText date.year ++ '-' :: padded 2 date.month ++ '-' :: padded 2 date.day ++
    'T' :: padded 2 (clock / 3600) ++ ':' :: padded 2 (clock / 60 % 60) ++
    ':' :: padded 2 second ++ fractionText nanos ++ ['Z']

end Instant

end ProductCatalog
