import ProductCatalog.Text.Utf8

/-!
# Blank characters

Two notions of blank occur. A message body is blank when all of its bytes
are ASCII white space (`isBlankByte`: space, tab, line feed, form feed and
carriage return). Setting values and query values are trimmed by the
Unicode property `White_Space` (`isBlank`), which has twenty-five members.
-/

namespace ProductCatalog.Text

/-- Space, tab, line feed, form feed or carriage return. -/
def isBlankByte (b : UInt8) : Bool :=
  b = 0x20 || b = 0x09 || b = 0x0A || b = 0x0C || b = 0x0D

/-- The Unicode property `White_Space`. -/
def isBlank (c : Char) : Bool :=
  let n := c.toNat
  (0x09 ≤ n && n ≤ 0x0D) || n = 0x20 || n = 0x85 || n = 0xA0 || n = 0x1680 ||
    (0x2000 ≤ n && n ≤ 0x200A) || n = 0x2028 || n = 0x2029 || n = 0x202F || n = 0x205F ||
    n = 0x3000

/-- A character list without its leading blanks. -/
def trimStart (cs : List Char) : List Char := cs.dropWhile isBlank

/-- A character list without the blanks at its two ends. -/
def trim (cs : List Char) : List Char :=
  (trimStart (trimStart cs).reverse).reverse

end ProductCatalog.Text
