import ProductCatalog.Text.Digits

/-!
# Binary64 numbers, exactly

Prices travel through JSON as 64-bit binary floating point, and setting
values may be written as floating-point text. The format is represented
by its value: a finite number is `± mantissa · 2 ^ exponent`, and every
operation computes the exact rational result and rounds once, to the
nearest number with ties to the even mantissa. No machine arithmetic is
involved, so each operation is a function that proofs can compute with.

## Main definitions

* `Binary64.ofRatio` — the number nearest to a quotient of naturals; all
  other operations round through it.
* `add`, `mul`, `div` — arithmetic; `scaleByPowerOfTen` — the two-step
  scaling that reading a JSON number uses.
* `ofDecimal` — the number nearest to a decimal fraction.
* `roundHalfAway` — the nearest integer, halves away from zero.
-/

namespace ProductCatalog

/--
A 64-bit binary floating-point number. A finite number in normal form has
a mantissa below `2 ^ 53` and an exponent from `-1074` to `971`, with the
mantissa at least `2 ^ 52` unless the exponent is `-1074`.
-/
inductive Binary64
  | finite (negative : Bool) (mantissa : Nat) (exponent : Int)
  | infinite (negative : Bool)
  | nan
deriving Repr, DecidableEq, Inhabited

namespace Binary64

/-- The least exponent of a finite number. -/
def minExponent : Int := -1074

/-- The greatest exponent of a finite number. -/
def maxExponent : Int := 971

/-- Zero with a sign. -/
def zero (negative : Bool) : Binary64 := finite negative 0 minExponent

/-- The quotient of `num · 2 ^ (-e)` and `den`, with the remainder and divisor that belong to it. -/
private def shifted (num den : Nat) (e : Int) : Nat × Nat × Nat :=
  let n := if e < 0 then num * 2 ^ e.natAbs else num
  let d := if e < 0 then den else den * 2 ^ e.natAbs
  (n / d, n % d, d)

/-- Rounds a quotient up or not, a half to the even neighbour. -/
def roundEven (quotient remainder divisor : Nat) : Nat :=
  if 2 * remainder < divisor then quotient
  else if divisor < 2 * remainder then quotient + 1
  else quotient + quotient % 2

/-- A mantissa of at most `2 ^ 53` at an exponent, brought to normal form or to infinity. -/
private def pack (negative : Bool) (mantissa : Nat) (exponent : Int) : Binary64 :=
  let (m, e) := if mantissa = 2 ^ 53 then (2 ^ 52, exponent + 1) else (mantissa, exponent)
  if maxExponent < e then infinite negative else finite negative m e

/-- The number nearest to `± num / den`. A zero divisor gives infinity. -/
def ofRatio (negative : Bool) (num den : Nat) : Binary64 :=
  if num = 0 then zero negative
  else if den = 0 then infinite negative
  else
    let guess : Int := (Nat.log2 num : Int) - (Nat.log2 den : Int) - 53
    let guess := if 2 ^ 53 ≤ (shifted num den guess).1 then guess + 1 else guess
    let e := max guess minExponent
    let (q, r, d) := shifted num den e
    pack negative (roundEven q r d) e

/-- The number nearest to a natural number. -/
def ofNat (n : Nat) : Binary64 := ofRatio false n 1

/-- The magnitude of a finite number as a quotient of naturals. -/
def ratio (mantissa : Nat) (exponent : Int) : Nat × Nat :=
  if exponent < 0 then (mantissa, 2 ^ exponent.natAbs) else (mantissa * 2 ^ exponent.natAbs, 1)

/-- The number with the other sign. -/
def neg : Binary64 → Binary64
  | finite s m e => finite (!s) m e
  | infinite s => infinite (!s)
  | nan => nan

/-- Whether a number is infinite. -/
def isInfinite : Binary64 → Bool
  | infinite _ => true
  | _ => false

/-- Whether a number is zero, of either sign. -/
def isZero : Binary64 → Bool
  | finite _ m _ => m = 0
  | _ => false

/-- The product of two numbers, rounded once. -/
def mul : Binary64 → Binary64 → Binary64
  | nan, _ | _, nan => nan
  | infinite s, x | x, infinite s =>
    match x with
    | finite t m _ => if m = 0 then nan else infinite (s != t)
    | infinite t => infinite (s != t)
    | nan => nan
  | finite s m e, finite t n f =>
    let (p, q) := ratio m e
    let (u, v) := ratio n f
    ofRatio (s != t) (p * u) (q * v)

/-- The quotient of two numbers, rounded once. -/
def div : Binary64 → Binary64 → Binary64
  | nan, _ | _, nan => nan
  | infinite _, infinite _ => nan
  | infinite s, finite t _ _ => infinite (s != t)
  | finite s _ _, infinite t => zero (s != t)
  | finite s m e, finite t n f =>
    let (p, q) := ratio m e
    let (u, v) := ratio n f
    if m = 0 && n = 0 then nan else ofRatio (s != t) (p * v) (q * u)

/-- The sum of two numbers, rounded once. -/
def add : Binary64 → Binary64 → Binary64
  | nan, _ | _, nan => nan
  | infinite s, infinite t => if s = t then infinite s else nan
  | infinite s, _ | _, infinite s => infinite s
  | finite s m e, finite t n f =>
    let (p, q) := ratio m e
    let (u, v) := ratio n f
    let a : Int := if s then - (p * v : Nat) else (p * v : Nat)
    let b : Int := if t then - (u * q : Nat) else (u * q : Nat)
    let sum := a + b
    if sum = 0 then zero (s && t) else ofRatio (sum < 0) sum.natAbs (q * v)

/-- The nearest integer, halves away from zero; what is not finite stays as it is. -/
def roundHalfAway : Binary64 → Binary64
  | finite s m e =>
    let (p, q) := ratio m e
    ofRatio s ((2 * p + q) / (2 * q)) 1
  | x => x

/-- The number nearest to `± digits · 10 ^ exponent`. -/
def ofDecimal (negative : Bool) (digits : Nat) (exponent : Int) : Binary64 :=
  let width : Int := (Text.Digits.ofNat digits).length
  if digits = 0 then zero negative
  else if 400 < exponent + width then infinite negative
  else if exponent + width < -400 then zero negative
  else if exponent < 0 then ofRatio negative digits (10 ^ exponent.natAbs)
  else ofRatio negative (digits * 10 ^ exponent.natAbs) 1

/-- A power with a natural exponent, by repeated squaring with a rounding at each product. -/
def powFrom (result base : Binary64) (k : Nat) : Binary64 :=
  let result := if k % 2 = 1 then mul result base else result
  if k < 2 then result else powFrom result (mul base base) (k / 2)
termination_by k

/-- Ten to a natural power, by repeated squaring. -/
def powerOfTen (k : Nat) : Binary64 := powFrom (ofNat 1) (ofNat 10) k

/--
A non-negative number times a power of ten, as far as the format goes:
one product with, or one quotient by, the nearest number to the power;
exponents below `-308` divide by `10 ^ 308` first. `none` when the result
is too large.
-/
def scaleByPowerOfTen (x : Binary64) (exponent : Int) : Option Binary64 :=
  go (exponent.natAbs / 308 + 1) x exponent
where
  go : Nat → Binary64 → Int → Option Binary64
    | 0, x, _ => some x
    | fuel + 1, x, exponent =>
      if exponent.natAbs ≤ 308 then
        let power := ofDecimal false 1 exponent.natAbs
        if 0 ≤ exponent then
          let scaled := mul x power
          if isInfinite scaled then none else some scaled
        else some (div x power)
      else if isZero x then some x
      else if 0 ≤ exponent then none
      else go fuel (div x (ofDecimal false 1 308)) (exponent + 308)

end Binary64

end ProductCatalog
