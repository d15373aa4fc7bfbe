import ProductCatalog.Text.Hexadecimal
import ProductCatalog.Text.Utf8

/-!
# Encoded paths and queries

In URLs a byte may be written as a percent sign and two hexadecimal digits.
A query is a list of names and values: `&` stands between the pairs and the
first `=` of a pair between its name and value, and `+` is a space.

## Main definitions

* `percentDecode` — the bytes that an encoded text stands for.
* `formPairs` — the names and values of a query.
-/

namespace ProductCatalog.Text

/-- Replaces each `%` with two hexadecimal digits by the byte; other `%` stay. -/
def percentDecode : Bytes → Bytes
  | [] => []
  | 0x25 :: a :: b :: rest =>
    match hexValue? (Char.ofNat a.toNat), hexValue? (Char.ofNat b.toNat) with
    | some x, some y => UInt8.ofNat (x * 16 + y) :: percentDecode rest
    | _, _ => 0x25 :: percentDecode (a :: b :: rest)
  | b :: rest => b :: percentDecode rest

/-- The text that an encoded text stands for. -/
def percentText (cs : List Char) : Except Utf8Fault String :=
  decode (percentDecode (encode (String.ofList cs)))

/-- A name or value of a form: `+` is a space, and what is ill-formed text becomes a replacement
character. -/
def formText (cs : List Char) : String :=
  match percentText (cs.map fun c => if c = '+' then ' ' else c) with
  | .ok text => text
  | .error _ => "\uFFFD"

/-- The names and values of a query. A part without `=` is a name with an empty value. -/
def formPairs (query : List Char) : List (String × String) :=
  ((query.splitOn '&').filter (!·.isEmpty)).map fun part =>
    (formText (part.takeWhile (· != '=')), formText ((part.dropWhile (· != '=')).drop 1))

end ProductCatalog.Text
