import ProductCatalog.Number.Shortest
import ProductCatalog.Text.Quoted

/-!
# Writing JSON

JSON is written without blanks, members in a fixed order. In strings, the
quote, the backslash and the control characters below the space are
escaped, five of the latter by a letter and the others by four hexadecimal
digits; everything else is written as it is.
-/

namespace ProductCatalog.Json

open Text

/-- How a character is written inside a JSON string. -/
def escapeChar (c : Char) : List Char :=
  match c with
  | '"' => ['\\', '"']
  | '\\' => ['\\', '\\']
  | '\x08' => ['\\', 'b']
  | '\x0C' => ['\\', 'f']
  | '\n' => ['\\', 'n']
  | '\r' => ['\\', 'r']
  | '\t' => ['\\', 't']
  | _ =>
    if c.toNat < 0x20 then
      ['\\', 'u', '0', '0', hexChar (c.toNat / 16), hexChar (c.toNat % 16)]
    else [c]

/-- A JSON string. -/
def writeText (text : String) : String :=
  String.ofList ('"' :: (text.toList.flatMap escapeChar ++ ['"']))

/-- A JSON number that is a natural number. -/
def writeNatural (n : Nat) : String := String.ofList (Digits.ofNat n)

/-- A JSON object from member names and written values. -/
def writeObject (members : List (String × String)) : String :=
  "\x7b" ++ String.intercalate "," (members.map fun (k, v) => writeText k ++ ":" ++ v) ++ "\x7d"

/-- A JSON array from written values. -/
def writeList (values : List String) : String :=
  "[" ++ String.intercalate "," values ++ "]"

end ProductCatalog.Json
