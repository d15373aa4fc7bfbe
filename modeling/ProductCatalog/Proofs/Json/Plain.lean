import ProductCatalog.Text.Utf8

/-!
# JSON strings without escapes

A *plain* character is an ASCII character that stands for itself in a JSON
string: neither a control character nor the quote nor the backslash.

## Main results

* `encode_ascii` — a text of ASCII characters is one byte a character.
-/

namespace ProductCatalog.Json

open Text

/-- Whether a character stands for itself, as one byte, in a JSON string. -/
def isPlain (c : Char) : Bool :=
  0x20 ≤ c.toNat && c.toNat < 0x7F && c != '"' && c != '\\'

/-- The bytes of a text of ASCII characters. -/
def asciiBytes (cs : List Char) : Bytes := cs.map fun c => UInt8.ofNat c.toNat

theorem isPlain_iff {c : Char} :
    isPlain c = true ↔ 0x20 ≤ c.toNat ∧ c.toNat < 0x7F ∧ c ≠ '"' ∧ c ≠ '\\' := by
  simp [isPlain, and_assoc]

theorem toNat_asciiByte {c : Char} (h : c.toNat < 0x7F) :
    (UInt8.ofNat c.toNat).toNat = c.toNat := by
  rw [UInt8.toNat_ofNat']
  exact Nat.mod_eq_of_lt (by omega)

theorem utf8EncodeChar_ascii {c : Char} (h : c.toNat < 0x7F) :
    String.utf8EncodeChar c = [UInt8.ofNat c.toNat] := by
  have hval : c.val.toNat = c.toNat := rfl
  simp only [String.utf8EncodeChar, hval]
  rw [if_pos (by omega)]

/-- A text of ASCII characters is one byte a character in UTF-8. -/
theorem encode_ascii (cs : List Char) (h : ∀ c ∈ cs, c.toNat < 0x7F) :
    Text.encode (String.ofList cs) = asciiBytes cs := by
  rw [Text.encode, String.toList_ofList]
  induction cs with
  | nil => rfl
  | cons c cs ih =>
      rw [List.flatMap_cons, utf8EncodeChar_ascii (h c (by simp)),
        ih fun d hd => h d (by simp [hd])]
      rfl

end ProductCatalog.Json
