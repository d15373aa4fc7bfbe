import ProductCatalog.Number.Shortest
import ProductCatalog.Settings.Value
import ProductCatalog.Text.Quoted

/-!
# Reading settings from a tree

Settings have types, and scalars are converted to them generously: a truth
value may be a number or one of eight words, a number may be a truth value,
a fraction or a text, and a text may be any scalar but nothing. What
cannot be converted is refused with what was found, what was expected,
where it was found, and the source that it came from.

A section is a table. A list may stand for one, and then gives its values in
the order of their declaration.

## Main definitions

* `LoadFault` — why settings cannot be read.
* `readText`, `readNumber`, `readBoolean` — the conversions.
* `Section`, `Section.read` — a section and one of its values.
-/

namespace ProductCatalog.Settings

open Text

/-- Why settings cannot be read. -/
inductive LoadFault
  /-- A source is no readable YAML text with a mapping. -/
  | unreadable
  /-- A file that has to exist does not. -/
  | missingFile (path : String)
  /-- A value has the wrong type. -/
  | wrongType (found expected key : String) (origin : Option String)
  /-- A section is no section. -/
  | wrongSection (found name : String)
deriving Repr, DecidableEq

/-- The sentence that reports why settings cannot be read. What is wrong with an unreadable source
is not told. -/
def LoadFault.message : LoadFault → String
  | unreadable => ""
  | missingFile path => "configuration file \"" ++ path ++ "\" not found"
  | wrongType found expected key origin =>
    "invalid type: " ++ found ++ ", expected " ++ expected ++ " for key `" ++ key ++ "`" ++
      (match origin with
        | some origin => " in " ++ origin
        | none => "")
  | wrongSection found name => "invalid type: " ++ found ++ ", expected struct " ++ name

/-- The decimal digits of an integer. -/
def integerText (n : Int) : String := String.ofList (Digits.ofInt n)

/-- A number in diagnostics, always with a point if it is finite. -/
def numberText (x : Binary64) : String :=
  let text := Binary64.Shortest.plain x
  match x with
  | .finite .. => if text.toList.contains '.' then text else text ++ ".0"
  | _ => text

/-- What a value is called where another type was expected. -/
def Value.found : Value → String
  | .scalar .nothing _ => "unit value"
  | .scalar (.boolean b) _ => if b then "boolean `true`" else "boolean `false`"
  | .scalar (.integer n) _ => "64-bit integer `" ++ integerText n ++ "`"
  | .scalar (.number x) _ => "floating point `" ++ numberText x ++ "`"
  | .scalar (.text s) _ => "string " ++ quoted s
  | .list .. => "sequence"
  | .table .. => "map"

/-- What a scalar is called where a section was expected. -/
def Value.foundAsSection : Value → String
  | .scalar (.integer n) _ => "integer `" ++ integerText n ++ "`"
  | v => v.found

/-- The source that a value came from. -/
def Value.origin : Value → Option String
  | .scalar _ origin => origin
  | .list _ origin => origin
  | .table _ origin => origin

/-- The refusal of a value that is not what was expected. -/
def Value.refuse {α : Type} (v : Value) (expected key : String) : Except LoadFault α :=
  .error (.wrongType v.found expected key v.origin)

/-! ## Conversions -/

/-- Words for truth values, in lower case. -/
def truthOfWord? (s : String) : Option Bool :=
  let word := lowerName s
  if ["1", "true", "on", "yes"].contains word then some true
  else if ["0", "false", "off", "no"].contains word then some false
  else none

/-- Reads a truth value. -/
def readBoolean (v : Value) (key : String) : Except LoadFault Bool :=
  match v with
  | .scalar (.boolean b) _ => .ok b
  | .scalar (.integer n) _ => .ok (n ≠ 0)
  | .scalar (.number x) _ => .ok !x.isZero
  | .scalar (.text s) _ =>
    match truthOfWord? s with
    | some b => .ok b
    | none => v.refuse "a boolean" key
  | _ => v.refuse "a boolean" key

/-- The largest number of 64 bits. -/
def largest : Nat := 2 ^ 64 - 1

/-- The whole number nearest to a number, a half away from zero, brought into the range of 64 bits.
What is no number is zero. -/
def wholeOf (x : Binary64) : Nat :=
  match x.roundHalfAway with
  | .finite negative m e =>
    if negative then 0
    else
      let (p, q) := Binary64.ratio m e
      min (p / q) largest
  | .infinite negative => if negative then 0 else largest
  | .nan => 0

/-- The whole number that a word or digits denote. -/
def wholeOfWord? (s : String) : Option Nat :=
  let word := lowerName s
  if ["true", "on", "yes"].contains word then some 1
  else if ["false", "off", "no"].contains word then some 0
  else Digits.unsigned? 64 word.toList

/-- Reads a whole number of 64 bits. -/
def readNumber (v : Value) (key : String) : Except LoadFault Nat :=
  match v with
  | .scalar (.boolean b) _ => .ok (if b then 1 else 0)
  | .scalar (.integer n) _ =>
    if 0 ≤ n then .ok n.toNat else v.refuse "an unsigned 64 bit or less integer" key
  | .scalar (.number x) _ => .ok (wholeOf x)
  | .scalar (.text s) _ =>
    match wholeOfWord? s with
    | some n => .ok n
    | none => v.refuse "an integer" key
  | _ => v.refuse "an integer" key

/-- Reads a whole number of 32 bits. -/
def readSmallNumber (v : Value) (key : String) : Except LoadFault Nat := do
  let n ← readNumber v key
  if n < 2 ^ 32 then return n
  else
    .error (.wrongType ("64-bit unsigned integer `" ++ integerText n ++ "`")
      "an unsigned 32 bit integer" key none)

/-- Reads a text. -/
def readText (v : Value) (key : String) : Except LoadFault String :=
  match v with
  | .scalar (.boolean b) _ => .ok (if b then "true" else "false")
  | .scalar (.integer n) _ => .ok (integerText n)
  | .scalar (.number x) _ => .ok (Binary64.Shortest.plain x)
  | .scalar (.text s) _ => .ok s
  | _ => v.refuse "a string" key

/-- Reads a text that may be missing. -/
def readOptionalText (v : Value) (key : String) : Except LoadFault (Option String) :=
  match v with
  | .scalar .nothing _ => .ok none
  | _ => (readText v key).map some

/-! ## Sections -/

/-- A section and its name. -/
structure Section where
  name : String
  value : Value

/-- The section with a name, if it is set. It has to be a table or a list. -/
def Section.of? (root : Value) (name typeName : String) : Except LoadFault (Option Section) :=
  match root.get? name with
  | none => .ok none
  | some v@(.scalar ..) => .error (.wrongSection v.foundAsSection typeName)
  | some v => .ok (some ⟨name, v⟩)

/-- A value of a section and the key that it has in diagnostics. In a list it stands at its place
in the order of declaration. -/
def Section.find? (s : Section) (field : String) (place : Nat) : Option (Value × String) :=
  match s.value with
  | .list items _ => items[place]?.map (·, s.name ++ "[" ++ integerText place ++ "]")
  | v => (v.get? field).map (·, s.name ++ "." ++ field)

/-- Reads a value of a section that may be missing altogether. What is missing has its default. -/
def Section.read {α : Type} (s : Option Section) (field : String) (place : Nat) (default : α)
    (reader : Value → String → Except LoadFault α) : Except LoadFault α :=
  match s.bind (·.find? field place) with
  | some (v, key) => reader v key
  | none => .ok default

end ProductCatalog.Settings
