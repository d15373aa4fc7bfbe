import ProductCatalog.Number.Shortest

/-!
# Decimal prices

A price is a decimal with a 96-bit mantissa and up to twenty-eight places
after the point. The scale is part of the value: `1.000` and `1` compare
equal as amounts and print differently.

## Main definitions

* `Decimal` — the value; its bounds are part of the type.
* `Decimal.ofParts?` — the one constructor, refusing what does not fit.
* `Decimal.le` — comparison as amounts, whatever the scales.
* `Decimal.text` — the decimal's own text.
* `Decimal.toBinary64` — the floating-point number that JSON carries.
-/

namespace ProductCatalog

/-- A decimal number `± mantissa / 10 ^ scale`. There is no negative zero. -/
structure Decimal where
  negative : Bool
  mantissa : Nat
  scale : Nat
  mantissa_lt : mantissa < 2 ^ 96
  scale_le : scale ≤ 28
  negative_zero : mantissa = 0 → negative = false
deriving DecidableEq

namespace Decimal

/-- The decimal with given parts, if they fit; the sign of a zero is dropped. -/
def ofParts? (negative : Bool) (mantissa scale : Nat) : Option Decimal :=
  if hm : mantissa < 2 ^ 96 then
    if hs : scale ≤ 28 then
      if hz : mantissa = 0 then
        some ⟨false, mantissa, scale, hm, hs, fun _ => rfl⟩
      else
        some ⟨negative, mantissa, scale, hm, hs, fun h => absurd h hz⟩
    else none
  else none

/-- A natural number below one million and one, as the bounds of a price are. -/
def ofSmall (n : Nat) (h : n ≤ 1000000) : Decimal :=
  ⟨false, n, 0, by omega, by omega, fun _ => rfl⟩

/-- Zero, without places. -/
def zero : Decimal := ofSmall 0 (Nat.zero_le _)

instance : Inhabited Decimal := ⟨zero⟩

/-- The mantissa with its sign. -/
def signedMantissa (d : Decimal) : Int := if d.negative then -(d.mantissa : Int) else d.mantissa

/-- Comparison as amounts, both brought to the sum of the two scales. -/
def le (a b : Decimal) : Bool :=
  a.signedMantissa * 10 ^ b.scale ≤ b.signedMantissa * 10 ^ a.scale

/-- The decimal's text, with exactly as many places as its scale says. -/
def text (d : Decimal) : String :=
  let digits := Text.Digits.padded (d.scale + 1) d.mantissa
  let whole := digits.take (digits.length - d.scale)
  let places := digits.drop (digits.length - d.scale)
  let body := if d.scale = 0 then whole else whole ++ '.' :: places
  String.ofList (if d.negative then '-' :: body else body)

/--
The floating-point number that stands for a price in JSON. A whole price
is the nearest number to it. Otherwise the fraction is divided out by
itself, added to the whole part, and the sum is rounded back to the places
that the scale allows, which removes what the addition let creep in.
-/
def toBinary64 (d : Decimal) : Binary64 :=
  let magnitude :=
    if d.scale = 0 then Binary64.ofNat d.mantissa
    else
      let unit := 10 ^ d.scale
      let whole := Binary64.ofNat (d.mantissa / unit)
      let fraction := Binary64.div (Binary64.ofNat (d.mantissa % unit)) (Binary64.ofNat unit)
      if fraction.isZero then whole
      else
        let power := Binary64.powerOfTen d.scale
        Binary64.div (Binary64.mul (Binary64.add whole fraction) power).roundHalfAway power
  if d.negative then magnitude.neg else magnitude

end Decimal

end ProductCatalog
