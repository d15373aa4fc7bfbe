import ProductCatalog.Text.Blank
import ProductCatalog.Time.Instant

/-!
# Reading instants

Instants are read from the date-and-time notation of RFC 3339 in a relaxed
form: the date and the time may be separated by `T`, `t` or a blank, blanks
may stand around the separators and before the offset, numbers may have
fewer digits than usual, the year may carry a sign and then any number of
digits, and the offset is `Z`, `z`, `UTC` in any case, or a sign, two
digits, any colons and blanks, and two digits. Second sixty is a leap
second.

Every refusal has one of five causes, in the order in which reading meets
them.
-/

namespace ProductCatalog.Instant

open Text

/-- Why a text is not an instant. -/
inductive Fault
  /-- A number denotes no such date, time or offset. -/
  | outOfRange
  /-- The date lies outside the supported years once the offset is applied. -/
  | impossible
  /-- A character does not belong where it stands. -/
  | invalid
  /-- The text ends too early. -/
  | tooShort
  /-- The text goes on after the offset. -/
  | tooLong
deriving Repr, DecidableEq

/-- The sentence that reports a refusal. -/
def Fault.message : Fault → String
  | outOfRange => "input is out of range"
  | impossible => "no possible date and time matching input"
  | invalid => "input contains invalid characters"
  | tooShort => "premature end of input"
  | tooLong => "trailing input"

/-- Reads one to `width` digits (any number of them if `width` is `none`). -/
private def number (width : Option Nat) (cs : List Char) :
    Except Fault (Nat × List Char) :=
  let digits := cs.takeWhile Digits.isDigit
  let digits := match width with
    | some w => digits.take w
    | none => digits
  if cs.isEmpty then .error .tooShort
  else if digits.isEmpty then .error .invalid
  else if 2 ^ 63 ≤ Digits.value digits then .error .outOfRange
  else .ok (Digits.value digits, cs.drop digits.length)

/-- Reads a year: at most four digits, or a sign and any number of digits. -/
private def year (cs : List Char) : Except Fault (Int × List Char) := do
  let (y, rest) ← match trimStart cs with
    | '-' :: ds => do
      let (n, rest) ← number none ds
      pure (-(n : Int), rest)
    | '+' :: ds => do
      let (n, rest) ← number none ds
      pure ((n : Int), rest)
    | ds => do
      let (n, rest) ← number (some 4) ds
      pure ((n : Int), rest)
  if y < -2147483648 || 2147483647 < y then .error .outOfRange else pure (y, rest)

/-- Reads one or two digits after blanks, as a number from `lo` to `hi`. -/
private def field (lo hi : Nat) (cs : List Char) : Except Fault (Nat × List Char) := do
  let (n, rest) ← number (some 2) (trimStart cs)
  if n < lo || hi < n then .error .outOfRange else pure (n, rest)

/-- Passes over one character. -/
private def literal (c : Char) : List Char → Except Fault (List Char)
  | [] => .error .tooShort
  | d :: rest => if c = d then .ok rest else .error .invalid

/-- Reads the places of a second, if there is a point; from the tenth on they are dropped. -/
private def fraction : List Char → Except Fault (Nat × List Char)
  | '.' :: cs => do
    let (n, rest) ← number (some 9) cs
    let places := cs.length - rest.length
    pure (n * 10 ^ (9 - places), rest.dropWhile Digits.isDigit)
  | cs => .ok (0, cs)

/-- Two leading ASCII digits, told apart from a text too short to hold two bytes. -/
private def twoDigits : List Char → Except Fault (Nat × Nat × List Char)
  | a :: b :: rest =>
    if Digits.isDigit a && Digits.isDigit b then
      .ok (Digits.digitValue a, Digits.digitValue b, rest)
    else .error .invalid
  | [a] => if a.toNat < 128 then .error .tooShort else .error .invalid
  | [] => .error .tooShort

/-- Reads a numeric offset after its sign, in seconds. -/
private def offsetAfterSign (cs : List Char) : Except Fault (Int × List Char) := do
  let (h1, h2, rest) ← twoDigits cs
  let (m1, m2, rest) ← twoDigits (rest.dropWhile fun c => c = ':' || isBlank c)
  if 6 ≤ m1 then .error .outOfRange
  else pure ((((h1 * 10 + h2) * 3600 + (m1 * 10 + m2) * 60 : Nat) : Int), rest)

/-- Reads an offset in seconds east of UTC. -/
private def offset (cs : List Char) : Except Fault (Int × List Char) :=
  let lower := (cs.take 3).map Char.toLower
  if lower = ['u', 't', 'c'] then .ok (0, cs.drop 3)
  else match cs with
    | [] => .error .tooShort
    | c :: rest =>
      if c = 'Z' || c = 'z' then .ok (0, rest)
      else if c = '+' then offsetAfterSign rest
      else if c = '-' || c = '−' then (offsetAfterSign rest).map fun (n, r) => (-n, r)
      else .error .invalid

/-- Reads an instant. -/
def parse (source : String) : Except Fault Instant := do
  let (y, cs) ← year source.toList
  let cs ← literal '-' (trimStart cs)
  let (month, cs) ← field 1 12 cs
  let cs ← literal '-' (trimStart cs)
  let (day, cs) ← field 1 31 cs
  let cs ← match cs with
    | [] => .error .tooShort
    | c :: rest => if c = 'T' || c = 't' || c = ' ' then .ok rest else .error .invalid
  let (hour, cs) ← field 0 23 cs
  let cs ← literal ':' (trimStart cs)
  let (minute, cs) ← field 0 59 cs
  let cs ← literal ':' (trimStart cs)
  let (second, cs) ← field 0 60 cs
  let (nanos, cs) ← fraction cs
  let (east, cs) ← offset (trimStart cs)
  if !(trimStart cs).isEmpty then .error .tooLong
  else if y < minYear || maxYear < y || daysInMonth y month < day then .error .outOfRange
  else if 86400 ≤ east.natAbs then .error .outOfRange
  else
    let clock : Int := hour * 3600 + minute * 60 + min second 59
    let seconds := daysBefore ⟨y, month, day⟩ * 86400 + clock - east
    let utcYear := (dateOf (Int.fdiv seconds 86400)).year
    if utcYear < minYear || maxYear < utcYear then .error .impossible
    else .ok ⟨seconds, if second = 60 then 1000000000 + nanos else nanos⟩

end ProductCatalog.Instant
