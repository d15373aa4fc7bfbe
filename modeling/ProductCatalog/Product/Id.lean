import ProductCatalog.Text.Digits
import ProductCatalog.Text.Quoted

/-!
# Product ids

A product is named by a 128-bit number. Its canonical text is thirty-two
lower-case hexadecimal digits in five groups joined by hyphens, so that the
order of ids, of their numbers and of their texts is one order.

Four spellings are read: the digits without hyphens, the hyphenated form,
the hyphenated form in braces, and the hyphenated form after `urn:uuid:`.
Hexadecimal digits and the prefix may be in either case. Everything else
is refused with a reason, which quotes the first thing that is wrong.

New ids are numbered by time: forty-eight bits of milliseconds come first,
then a version and a variant mark, then a running number and noise, so
that later ids are greater.

## Main definitions

* `ProductId` — the id; `ProductId.text` — its canonical text.
* `ProductId.parse?` — the reading of all four spellings.
* `ProductId.diagnose` — the reason why a text is no id.
* `ProductId.timed` — the id minted at an instant.
-/

namespace ProductCatalog

open Text

/-- The name of a product: a 128-bit number. -/
structure ProductId where
  value : Nat
  value_lt : value < 2 ^ 128
deriving DecidableEq

namespace ProductId

/-- The id with the low 128 bits of a number. -/
def ofNat (n : Nat) : ProductId := ⟨n % 2 ^ 128, Nat.mod_lt _ (by decide)⟩

instance : Inhabited ProductId := ⟨ofNat 0⟩

/-- Ids are ordered as numbers. -/
def le (a b : ProductId) : Bool := a.value ≤ b.value

section Order

variable {a b c : ProductId}

theorem le_iff : a.le b = true ↔ a.value ≤ b.value := decide_eq_true_iff

theorem le_total (a b : ProductId) : (a.le b || b.le a) = true := by
  rw [Bool.or_eq_true, le_iff, le_iff]
  exact Nat.le_total ..

theorem le_trans (hab : a.le b = true) (hbc : b.le c = true) : a.le c = true :=
  le_iff.2 (Nat.le_trans (le_iff.1 hab) (le_iff.1 hbc))

theorem le_antisymm (hab : a.le b = true) (hba : b.le a = true) : a = b := by
  have hvalue : a.value = b.value := Nat.le_antisymm (le_iff.1 hab) (le_iff.1 hba)
  cases a
  cases b
  cases hvalue
  rfl

end Order

/-! ## Groups -/

/-- Lengths of the five groups of a hyphenated id. -/
def groups : List Nat := [8, 4, 4, 4, 12]

/-- Cuts a string into groups of given lengths and joins them by hyphens. -/
def grouped : List Nat → List Char → List Char
  | [], _ => []
  | [_], cs => cs
  | n :: ns, cs => cs.take n ++ '-' :: grouped ns (cs.drop n)

/-- Joins the groups of a hyphenated string, if they have the given lengths. -/
def ungrouped? : List Nat → List Char → Option (List Char)
  | [], _ => none
  | [n], cs => if cs.length = n then some cs else none
  | n :: ns, cs =>
    match cs.drop n with
    | '-' :: rest => (ungrouped? ns rest).map (cs.take n ++ ·)
    | _ => none

/-- The canonical text as characters. -/
def chars (id : ProductId) : List Char := grouped groups (hexPadded 32 id.value)

/-- The canonical text: five hyphenated groups in lower case. -/
def text (id : ProductId) : String := String.ofList id.chars

/-! ## Reading -/

/-- Thirty-two hexadecimal digits. -/
def parseSimple? (cs : List Char) : Option ProductId :=
  if cs.length = 32 then
    match hexFrom? 0 cs with
    | some n => if h : n < 2 ^ 128 then some ⟨n, h⟩ else none
    | none => none
  else none

/-- Five groups of hexadecimal digits joined by hyphens. -/
def parseHyphenated? (cs : List Char) : Option ProductId :=
  (ungrouped? groups cs).bind parseSimple?

/-- What stands between braces that are the first and the last character. -/
def unbraced? : List Char → Option (List Char)
  | '\x7b' :: rest => if rest.getLast? = some '\x7d' then some rest.dropLast else none
  | _ => none

/-- The prefix that marks an id as a name in the `uuid` namespace. -/
def urnPrefix : List Char := ['u', 'r', 'n', ':', 'u', 'u', 'i', 'd', ':']

/-- What stands after the prefix in any case. -/
def afterUrn? (cs : List Char) : Option (List Char) :=
  if (cs.take 9).map Char.toLower = urnPrefix then some (cs.drop 9) else none

/-- Reads an id in any of its four spellings. -/
def parseChars? (cs : List Char) : Option ProductId :=
  match parseSimple? cs with
  | some id => some id
  | none =>
    match parseHyphenated? cs with
    | some id => some id
    | none => ((unbraced? cs).or (afterUrn? cs)).bind parseHyphenated?

/-- Reads an id in any of its four spellings. -/
def parse? (text : String) : Option ProductId := parseChars? text.toList

/-! ## Reasons -/

/-- Why a text is no id. -/
inductive Fault
  /-- A character that is neither a hyphen nor a hexadecimal digit, and the byte it starts at. -/
  | strayCharacter (c : Char) (offset : Nat)
  /-- Digits only, but not thirty-two of them. -/
  | wrongLength (bytes : Nat)
  /-- Not five groups. -/
  | groupCount (found : Nat)
  /-- The first group, counted from 0, whose length is wrong. -/
  | groupLength (group expected found : Nat)
deriving Repr, DecidableEq

/-- The sentence that reports why a text is no id. -/
def Fault.message : Fault → String
  | strayCharacter c i =>
    "invalid character: found \x60" ++ String.ofList [c] ++ s!"\x60 at {i}"
  | wrongLength n => s!"invalid length: found {n}"
  | groupCount n => s!"invalid group count: expected 5, found {n}"
  | groupLength g e n => s!"invalid group length in group {g}: expected {e}, found {n}"

/-- The number of bytes of a character list in UTF-8. -/
private def byteLength (cs : List Char) : Nat := cs.foldl (fun n c => n + c.utf8Size) 0

/-- The first stray character and the byte it starts at, counted from `i`. -/
private def firstStray (i : Nat) : List Char → Option (Char × Nat)
  | [] => none
  | c :: rest =>
    if c = '-' || (hexValue? c).isSome then firstStray (i + 1) rest else some (c, i)

/--
The lengths of the groups before each hyphen, compared one by one with
those of an id; the first that differs, with its number.
-/
private def firstUneven (group : Nat) : List Nat → List Char → Option (Nat × Nat × Nat)
  | n :: m :: rest, cs =>
    let len := (cs.takeWhile (· != '-')).length
    if len = n then firstUneven (group + 1) (m :: rest) (cs.drop (len + 1))
    else some (group, n, len)
  | _, _ => none

/--
The reason why a text is no id; meaningful for texts that `parse?` refuses.
A text without hyphens has a wrong length, unless it is in braces, has the
prefix, or is as long as a hyphenated id: then its groups are counted.
-/
def diagnose (text : String) : Fault :=
  let cs := text.toList
  let (body, skipped, plain) :=
    match unbraced? cs with
    | some inner => (inner, 1, false)
    | none => if urnPrefix.isPrefixOf cs then (cs.drop 9, 9, false) else (cs, 0, true)
  match firstStray skipped body with
  | some (c, i) => .strayCharacter c i
  | none =>
    let hyphens := body.count '-'
    if hyphens = 0 && plain && byteLength cs != 36 then .wrongLength (byteLength cs)
    else if hyphens != 4 then .groupCount (hyphens + 1)
    else
      match firstUneven 0 groups body with
      | some (g, e, n) => .groupLength g e n
      | none => .groupLength 4 12 (byteLength cs - 24)

/-- Reads an id or says why there is none. -/
def parse (text : String) : Except Fault ProductId :=
  match parse? text with
  | some id => .ok id
  | none => .error (diagnose text)

/-! ## Minting -/

/--
The id minted at a millisecond with a running number: time, version 7, the
high bits of the number, variant 2, and its low bits.
-/
def timed (millis number : Nat) : ProductId :=
  ofNat ((millis % 2 ^ 48) * 2 ^ 80 + 7 * 2 ^ 76 + (number / 2 ^ 62 % 2 ^ 12) * 2 ^ 64
    + 2 * 2 ^ 62 + number % 2 ^ 62)

/-- The version mark of an id. -/
def version (id : ProductId) : Nat := id.value / 2 ^ 76 % 16

/-- Whether an id carries the variant mark of the standard layout. -/
def hasStandardVariant (id : ProductId) : Bool := id.value / 2 ^ 62 % 4 = 2

end ProductId

end ProductCatalog
