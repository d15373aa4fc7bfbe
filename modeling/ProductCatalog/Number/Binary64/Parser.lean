import ProductCatalog.Number.Binary64

/-!
# Reading binary numbers

A decimal spelling denotes the binary number nearest to it. Besides digits
with a point and an exponent there are words for infinity and for no number.
-/

namespace ProductCatalog.Binary64

open Text

/-- The number that a decimal spelling denotes: an optional sign, digits with at most one point
among them and at least one digit, and an optional exponent; or a word for infinity or for no
number. -/
def parse? (text : List Char) : Option Binary64 :=
  let (negative, cs) := match text with
    | '-' :: rest => (true, rest)
    | '+' :: rest => (false, rest)
    | cs => (false, cs)
  let word := (String.ofList cs).toLower
  if word = "inf" || word = "infinity" then some (.infinite negative)
  else if word = "nan" then some .nan
  else
    let whole := cs.takeWhile Digits.isDigit
    let rest := cs.drop whole.length
    let (fraction, rest) := match rest with
      | '.' :: more => (more.takeWhile Digits.isDigit, more.dropWhile Digits.isDigit)
      | _ => ([], rest)
    if whole.isEmpty && fraction.isEmpty then none
    else
      let mantissa := Digits.value (whole ++ fraction)
      match rest with
      | [] => some (.ofDecimal negative mantissa (-(fraction.length : Int)))
      | e :: more =>
        if e = 'e' || e = 'E' then
          (Digits.int? more).map fun n => .ofDecimal negative mantissa (n - fraction.length)
        else none

end ProductCatalog.Binary64
