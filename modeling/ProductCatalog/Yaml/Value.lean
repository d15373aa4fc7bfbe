import ProductCatalog.Number.Binary64.Parser
import ProductCatalog.Text.Digits
import ProductCatalog.Yaml.Scalar

/-!
# Values of a YAML text

A quoted scalar or a block is a text. A plain scalar is what it looks like:
nothing, a truth value, a whole number that fits 64 bits, a number, or else
a text. A tag can ask for one of these meanings, and the scalar then has no
value unless it has that meaning; every other tag makes it a text.

Numbers keep their spelling here, because two spellings of a number are two
different keys.

## Main definitions

* `Value` — a value; `Value.ofPlain` — the value of a plain scalar.
-/

namespace ProductCatalog

open Text

namespace Yaml

/-- A value. -/
inductive Value
  | null
  | boolean (b : Bool)
  | integer (n : Int)
  /-- A number, as it is written. -/
  | number (text : List Char)
  | text (cs : List Char)
  | list (items : List Value)
  | mapping (entries : List (Value × Value))
deriving Repr, BEq, Inhabited

namespace Value

/-- A whole number of 64 bits in another base, with an optional sign. -/
def based? (base : Nat) (cs : List Char) : Option Int :=
  let (negative, digits) := match cs with
    | '-' :: rest => (true, rest)
    | '+' :: rest => (false, rest)
    | _ => (false, cs)
  if digits.isEmpty then none
  else
    let value := digits.foldlM (fun n c => do
      let d ← Text.hexValue? c
      if d < base then some (n * base + d) else none) 0
    value.bind fun n =>
      if negative then if n ≤ 2 ^ 63 then some (-(n : Int)) else none
      else if n < 2 ^ 63 then some (n : Int) else none

/-- Whether a scalar is spelt like a number. -/
def isNumber (cs : List Char) : Bool :=
  let word := String.ofList cs
  [".inf", ".Inf", ".INF", "+.inf", "+.Inf", "+.INF", "-.inf", "-.Inf", "-.INF",
    ".nan", ".NaN", ".NAN"].contains word ||
    (cs.any Digits.isDigit && (Binary64.parse? cs).isSome)

/-- A whole number in one of the spellings with a sign of its own: `0x`, `0o` or `+`. -/
def marked? : List Char → Option Int
  | '0' :: 'x' :: digits => based? 16 digits
  | '0' :: 'o' :: digits => based? 8 digits
  | '+' :: digits => Digits.int64? digits
  | _ => none

/-- The value of a plain scalar without a tag. -/
def ofPlain (cs : List Char) : Value :=
  match marked? cs with
  | some n => .integer n
  | none =>
    match String.ofList cs with
    | "" | "~" | "null" => .null
    | "true" => .boolean true
    | "false" => .boolean false
    | _ =>
      match Digits.int64? cs with
      | some n => .integer n
      | none => if isNumber cs then .number cs else .text cs

/-- The meanings that a tag can ask for. -/
def standardTag : List Char := "tag:yaml.org,2002:".toList

/-- The value of a plain scalar under a tag. -/
def ofTagged (tag suffix cs : List Char) : Value :=
  if tag ≠ standardTag then .text cs
  else
    match String.ofList suffix with
    | "bool" =>
      match String.ofList cs with
      | "true" => .boolean true
      | "false" => .boolean false
      | _ => .null
    | "int" => ((Digits.int64? cs).map Value.integer).getD .null
    | "float" => if isNumber cs then .number cs else .null
    | "null" => .null
    | _ => .text cs

end Value

end Yaml

end ProductCatalog
