import ProductCatalog.Number.Decimal

/-!
# Reading decimals

Price texts are read in two notations. The plain one is an optional sign,
digits with at most one point among them, and underscores between digits.
Where the mantissa or the scale is full, the next character still rounds
the last place and whatever follows is not looked at. The scientific one
is a plain decimal, an `e` or `E`, and a whole exponent; the result must
be exact.

`Decimal.parse?` takes the plain reading if there is one and the
scientific one otherwise.
-/

namespace ProductCatalog.Decimal

open Text

/-- What has been read of a plain decimal. -/
structure Scan where
  negative : Bool
  mantissa : Nat := 0
  scale : Nat := 0
  /-- A point has been read. -/
  point : Bool := false
  /-- A digit has been read. -/
  digit : Bool := false

/-- The decimal read so far, if it has a digit. -/
def Scan.finish (scan : Scan) : Option Decimal :=
  if scan.digit then ofParts? scan.negative scan.mantissa scan.scale else none

/--
The last place of a full decimal rounded by the character after it. An
underscore or a second point rounds down; another character is refused.
A mantissa that rounding makes too large gives up a place.
-/
def Scan.round (scan : Scan) (next : Char) : Option Decimal :=
  if Digits.isDigit next || next = '_' || next = '.' then
    if Digits.isDigit next && 5 ≤ Digits.digitValue next then
      let up := scan.mantissa + 1
      if up < 2 ^ 96 then ofParts? scan.negative up scan.scale
      else if scan.scale = 0 then none
      else ofParts? scan.negative ((up + 4) / 10) (scan.scale - 1)
    else ofParts? scan.negative scan.mantissa scan.scale
  else none

/-- Reads on from a partly read decimal. -/
def Scan.run (scan : Scan) : List Char → Option Decimal
  | [] => scan.finish
  | c :: rest =>
    if scan.point && 28 ≤ scan.scale then scan.round c
    else if Digits.isDigit c then
      let mantissa := scan.mantissa * 10 + Digits.digitValue c
      if 2 ^ 96 ≤ mantissa then
        if scan.point then scan.round c else none
      else
        run { scan with
              mantissa := mantissa, digit := true
              scale := if scan.point then scan.scale + 1 else 0 } rest
    else if c = '.' && !scan.point then run { scan with point := true } rest
    else if c = '_' && scan.digit then run scan rest
    else none

/-- Reads the plain notation. -/
def parsePlain? : List Char → Option Decimal
  | '-' :: cs => Scan.run { negative := true } cs
  | '+' :: cs => Scan.run { negative := false } cs
  | cs => Scan.run { negative := false } cs

/-- A decimal with its point moved `k ≤ 28` places to the left. -/
def shiftDown? (d : Decimal) (k : Nat) : Option Decimal :=
  if k ≤ 28 then ofParts? d.negative d.mantissa (d.scale + k) else none

/-- A decimal with its point moved `k` places to the right, if the result is exact. -/
def shiftUp? (d : Decimal) (k : Nat) : Option Decimal :=
  if k ≤ d.scale then ofParts? d.negative d.mantissa (d.scale - k)
  else if k ≤ 28 then ofParts? d.negative (d.mantissa * 10 ^ (k - d.scale)) 0
  else none

/-- Reads the scientific notation. -/
def parseScientific? (cs : List Char) : Option Decimal :=
  let isMark (c : Char) : Bool := c = 'e' || c = 'E'
  match cs.dropWhile (!isMark ·) with
  | [] => none
  | _ :: power =>
    match parsePlain? (cs.takeWhile (!isMark ·)), power with
    | none, _ => none
    | some base, '-' :: digits => do base.shiftDown? (← Digits.unsigned? 32 digits)
    | some base, digits => do base.shiftUp? (← Digits.unsigned? 32 digits)

/-- Reads a price text in either notation. -/
def parse? (text : String) : Option Decimal :=
  (parsePlain? text.toList).or (parseScientific? text.toList)

end ProductCatalog.Decimal
