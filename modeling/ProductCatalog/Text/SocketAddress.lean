import ProductCatalog.Text.Digits
import ProductCatalog.Text.Hexadecimal

/-!
# Socket addresses

A socket address is an IPv4 address, a colon and a port, or an IPv6 address
in brackets, a colon and a port. Parts of an IPv4 address have no leading
zeros; a port may have any number of them. An IPv6 address has eight groups
of up to four hexadecimal digits, of which one run may be left out, and may
end in an IPv4 address; a scope may follow it.

## Main definitions

* `isSocketAddress` — whether a text is one.
-/

namespace ProductCatalog.Text

/-- What is left after a part of an address, or nothing if the part is not there. -/
abbrev AddressPart := List Char → Option (List Char)

/-- A character. -/
def oneChar (c : Char) : AddressPart
  | d :: rest => if d = c then some rest else none
  | [] => none

/-- A decimal number below `bound`, with leading zeros if `zeros` says so. -/
def decimalBelow (bound : Nat) (zeros : Bool) : AddressPart := fun cs =>
  let digits := cs.takeWhile Digits.isDigit
  if digits.isEmpty || bound ≤ Digits.value digits then none
  else if !zeros && digits.head? = some '0' && 1 < digits.length then none
  else some (cs.drop digits.length)

/-- Four numbers below 256 between points. -/
def ipv4Address : AddressPart := fun cs => do
  let cs ← decimalBelow 256 false cs
  let cs ← decimalBelow 256 false (← oneChar '.' cs)
  let cs ← decimalBelow 256 false (← oneChar '.' cs)
  decimalBelow 256 false (← oneChar '.' cs)

/-- Up to four hexadecimal digits. -/
def hexGroup : AddressPart := fun cs =>
  let digits := cs.takeWhile isHexDigit
  if digits.isEmpty || 4 < digits.length then none else some (cs.drop digits.length)

/-- Groups between colons, at most `room`: how many, whether the last two were an IPv4 address, and
what is left. An IPv4 address needs room for two groups. -/
def hexGroups : (room : Nat) → (first : Bool) → List Char → Nat × Bool × List Char
  | 0, _, cs => (0, false, cs)
  | room + 1, first, cs =>
    match if first then some cs else oneChar ':' cs with
    | none => (0, false, cs)
    | some after =>
      match if 0 < room then ipv4Address after else none with
      | some rest => (2, true, rest)
      | none =>
        match hexGroup after with
        | none => (0, false, cs)
        | some rest =>
          let (n, ipv4, rest) := hexGroups room false rest
          (n + 1, ipv4, rest)

/-- An IPv6 address. -/
def ipv6Address : AddressPart := fun cs =>
  let (n, ipv4, rest) := hexGroups 8 true cs
  if n = 8 then some rest
  else if ipv4 then none
  else do
    let rest ← oneChar ':' (← oneChar ':' rest)
    let (_, _, rest) := hexGroups (7 - n) true rest
    return rest

/-- A colon and a port. -/
def portPart : AddressPart := fun cs => (oneChar ':' cs).bind (decimalBelow 65536 true)

/-- A percent sign and a scope, if they are there. -/
def scopePart : AddressPart := fun cs =>
  some (((oneChar '%' cs).bind (decimalBelow (2 ^ 32) true)).getD cs)

/-- Whether a text is a socket address. -/
def isSocketAddress (text : String) : Bool :=
  let cs := text.toList
  let v4 := (ipv4Address cs).bind portPart
  let v6 := do
    let cs ← ipv6Address (← oneChar '[' cs)
    portPart (← oneChar ']' (← scopePart cs))
  v4 = some [] || v6 = some []

end ProductCatalog.Text
