import ProductCatalog.Number.Binary64

/-!
# Shortest decimal text of a binary64 number

A finite number is written with the fewest significant digits that read
back as the same number; of two candidates with that many digits the one
nearer to the number is taken. `Shortest.digits` finds them by trying the
two neighbours of the number on the decimal grids of 1, 2, … 17 digits,
in exact arithmetic.

Two notations use these digits.

* `Shortest.plain` is positional throughout and has a fraction only if
  there is one: `1000`, `0.25`, `18446744073709552000`.
* `Shortest.json` is positional from `10 ^ -5` up to below `10 ^ 16` and
  scientific outside, always with a fraction or an exponent: `5.0`,
  `1e-7`, `1e+28`.
-/

namespace ProductCatalog.Binary64.Shortest

open Text

/-- A positive decimal number `digits · 10 ^ exponent` whose last digit is not zero. -/
structure Digits10 where
  digits : Nat
  exponent : Int
deriving Repr, DecidableEq

/-- Number of decimal digits; zero has one. -/
def width (n : Nat) : Nat := (Digits.ofNat n).length

/-- The least `k` with `num / den < 10 ^ k`, for a positive quotient. -/
def magnitude (num den : Nat) : Int :=
  if den ≤ num then width (num / den)
  else 1 - (width ((den + num - 1) / num - 1) : Int)

/-- Moves trailing zeros into the exponent, at most `fuel` of them. -/
def strip : Nat → Nat → Int → Digits10
  | 0, d, e => ⟨d, e⟩
  | fuel + 1, d, e => if d % 10 = 0 && d != 0 then strip fuel (d / 10) (e + 1) else ⟨d, e⟩

/-- The neighbours of `num / den` on the grid of multiples of `10 ^ e`, the nearer one first. -/
def neighbours (num den : Nat) (e : Int) : List Nat :=
  let n := if e < 0 then num * 10 ^ e.natAbs else num
  let d := if e < 0 then den else den * 10 ^ e.natAbs
  let q := n / d
  let r := n % d
  if r = 0 then [q]
  else if 2 * r < d then [q, q + 1]
  else if d < 2 * r then [q + 1, q]
  else if q % 2 = 0 then [q, q + 1] else [q + 1, q]

/-- Tries grids of more and more digits until a neighbour reads back as `x`. -/
def search (x : Binary64) (num den : Nat) (k : Int) : (left : Nat) → (count : Nat) → Digits10
  | 0, count => ⟨(neighbours num den (k - count)).headD 0, k - count⟩
  | left + 1, count =>
    let e := k - count
    match (neighbours num den e).find? (fun d => d != 0 && ofDecimal false d e = x) with
    | some d => strip 20 d e
    | none => search x num den k left (count + 1)

/-- The shortest decimal digits of a positive finite number. -/
def digits (mantissa : Nat) (exponent : Int) : Digits10 :=
  let (num, den) := ratio mantissa exponent
  search (finite false mantissa exponent) num den (magnitude num den) 16 1

/-- A sign in front of a text. -/
def signed (negative : Bool) (cs : List Char) : List Char := if negative then '-' :: cs else cs

/-- Positional notation without an exponent; a fraction only if there is one. -/
def plain : Binary64 → String
  | nan => "NaN"
  | infinite s => if s then "-inf" else "inf"
  | finite s m e =>
    String.ofList <| signed s <|
      if m = 0 then ['0']
      else
        let d := digits m e
        let ds := Digits.ofNat d.digits
        let point : Int := ds.length + d.exponent
        if 0 ≤ d.exponent then ds ++ List.replicate d.exponent.natAbs '0'
        else if 0 < point then ds.take point.natAbs ++ '.' :: ds.drop point.natAbs
        else '0' :: '.' :: (List.replicate point.natAbs '0' ++ ds)

/-- Digits with a point behind the first one, if others follow. -/
def pointed : List Char → List Char
  | d0 :: [] => [d0]
  | d0 :: rest => d0 :: '.' :: rest
  | [] => []

/-- The notation of JSON numbers for the digits of a positive number. -/
def Digits10.json (d : Digits10) : List Char :=
  let ds := Digits.ofNat d.digits
  let point : Int := ds.length + d.exponent
  if 0 ≤ d.exponent && point ≤ 16 then
    ds ++ List.replicate d.exponent.natAbs '0' ++ ['.', '0']
  else if 0 < point && point ≤ 16 then
    ds.take point.natAbs ++ '.' :: ds.drop point.natAbs
  else if -5 < point && point ≤ 0 then
    '0' :: '.' :: (List.replicate point.natAbs '0' ++ ds)
  else
    let power := point - 1
    let sign := if power < 0 then '-' else '+'
    pointed ds ++ 'e' :: sign :: Digits.ofNat power.natAbs

/-- The notation of JSON numbers; what is not finite has none and is written as `null`. -/
def json : Binary64 → String
  | nan => "null"
  | infinite _ => "null"
  | finite s m e =>
    String.ofList <| signed s <| if m = 0 then ['0', '.', '0'] else (digits m e).json

end ProductCatalog.Binary64.Shortest
