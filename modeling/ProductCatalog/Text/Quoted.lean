import ProductCatalog.Text.Hexadecimal
import ProductCatalog.Text.Visible

/-!
# Quoted text

Messages that cite a text put it between double quotes, so that blanks
and invisible characters in it can be seen. Quotes and backslashes are
escaped by a backslash, the four common control characters by a letter,
and every other character that does not show as itself by its code point
in lower-case hexadecimal between braces.
-/

namespace ProductCatalog.Text

/-- How quoted text shows one character. -/
def quoteChar (c : Char) : List Char :=
  match c with
  | '\x00' => ['\\', '0']
  | '\t' => ['\\', 't']
  | '\n' => ['\\', 'n']
  | '\r' => ['\\', 'r']
  | '"' => ['\\', '"']
  | '\\' => ['\\', '\\']
  | _ => if needsEscape c then ['\\', 'u', '\x7b'] ++ hexDigits c.toNat ['\x7d'] else [c]

/-- A text between double quotes, with escapes. -/
def quoted (text : String) : String :=
  String.ofList ('"' :: (text.toList.flatMap quoteChar ++ ['"']))

end ProductCatalog.Text
