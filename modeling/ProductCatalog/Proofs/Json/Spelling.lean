import ProductCatalog.Json.Reader
import ProductCatalog.Proofs.Json.Plain
import ProductCatalog.Text.Hexadecimal

/-!
# All spellings of a JSON string

A text has many spellings between quotes.  Each of its characters may stand
for itself, unless it is a control character, the quote or the backslash; a
few have an escape of one letter; and all have a numeric escape of four
hexadecimal digits in either case, which for the characters above `U+FFFF`
is a pair of such escapes, one for each half of the character's surrogate
pair.  Reading takes every spelling back to the text.

## Main definitions

* `SpellsChar`, `SpellsText` — the bytes that spell a character and a text.

## Main results

* `readString_of_spells` — a string is read as the text that it spells.
* `spellsText_plain` — a plain text spells itself.
-/

namespace ProductCatalog.Json

open Text

/-! ## What stands for itself -/

/-- A byte that stands for itself in a string. -/
def IsRaw (b : UInt8) : Prop := b ≠ 0x22 ∧ b ≠ 0x5C ∧ ¬ b < 0x20

/-- Bytes that stand for themselves are taken one by one. -/
theorem readStringBody_raw (fuel : Nat) (done raw rest : Bytes) (h : ∀ b ∈ raw, IsRaw b) :
    readStringBody (fuel + raw.length) done (raw ++ rest) =
      readStringBody fuel (raw.reverse ++ done) rest := by
  induction raw generalizing done with
  | nil => rfl
  | cons b raw ih =>
      obtain ⟨hquote, hback, hcontrol⟩ := h b (by simp)
      rw [List.length_cons, ← Nat.add_assoc, List.cons_append, readStringBody, if_neg hquote,
        if_neg hback, if_neg hcontrol, ih _ fun d hd => h d (by simp [hd]), List.reverse_cons,
        List.append_assoc]
      rfl

/-- The bytes of a character other than controls, the quote and the backslash. -/
theorem isRaw_of_mem_utf8EncodeChar {c : Char} {b : UInt8} (hlow : 0x20 ≤ c.toNat)
    (hquote : c ≠ '"') (hback : c ≠ '\\') (h : b ∈ String.utf8EncodeChar c) : IsRaw b := by
  rcases mem_utf8EncodeChar h with hself | hhigh
  · refine ⟨?_, ?_, ?_⟩
    · rintro rfl
      exact hquote (Char.toNat_inj.1 hself.symm)
    · rintro rfl
      exact hback (Char.toNat_inj.1 hself.symm)
    · rw [UInt8.lt_iff_toNat_lt, hself]
      exact Nat.not_lt.2 hlow
  · rw [UInt8.le_iff_toNat_le] at hhigh
    refine ⟨?_, ?_, ?_⟩
    · rintro rfl
      exact absurd hhigh (by decide)
    · rintro rfl
      exact absurd hhigh (by decide)
    · rw [UInt8.lt_iff_toNat_lt]
      exact Nat.not_lt.2 (Nat.le_trans (by decide) hhigh)

/-! ## Numeric escapes -/

/-- The bytes of the last four digits of a number in either case. -/
def Hex4 (n : Nat) (bytes : Bytes) : Prop :=
  ∃ cs, AnyCase (hexPadded 4 n) cs ∧ bytes = asciiBytes cs

theorem hexByte?_ascii {c : Char} (h : c.toNat < 0x7F) :
    hexByte? (UInt8.ofNat c.toNat) = hexValue? c := by
  rw [hexByte?, toNat_asciiByte h, Char.ofNat_toNat]

/-- Four digits are read as the number that they spell. -/
theorem readHex4_spells {n : Nat} {bytes : Bytes} (rest : Bytes) (hn : n < 0x10000)
    (h : Hex4 n bytes) : readHex4 (bytes ++ rest) = .ok (n, rest) := by
  obtain ⟨cs, hcs, rfl⟩ := h
  have hlen : cs.length = 4 := by rw [hcs.length_eq]; rfl
  have hread : hexFrom? 0 cs = some n := by
    have hsmall : n < 16 ^ 4 := hn
    rw [hcs.hexFrom?_eq, hexFrom?_hexPadded, Nat.zero_mul, Nat.zero_add, Nat.mod_eq_of_lt hsmall]
  match cs, hlen with
  | [a, b, c, d], _ =>
      have hdigit : ∀ {high : Nat} {x : Char} {xs : List Char} {m : Nat},
          hexFrom? high (x :: xs) = some m →
            ∃ v, hexValue? x = some v ∧ hexByte? (UInt8.ofNat x.toNat) = some v ∧
              hexFrom? (high * 16 + v) xs = some m := by
        intro high x xs m hm
        rw [hexFrom?] at hm
        cases hx : hexValue? x with
        | none => rw [hx] at hm; cases hm
        | some v =>
            rw [hx] at hm
            exact ⟨v, rfl, by rw [hexByte?_ascii (toNat_lt_of_hexValue? hx), hx], hm⟩
      obtain ⟨w, -, hw, hread⟩ := hdigit hread
      obtain ⟨x, -, hx, hread⟩ := hdigit hread
      obtain ⟨y, -, hy, hread⟩ := hdigit hread
      obtain ⟨z, -, hz, hread⟩ := hdigit hread
      have hvalue : ((w * 16 + x) * 16 + y) * 16 + z = n := by
        rw [hexFrom?, Option.some.injEq, Nat.zero_mul, Nat.zero_add] at hread
        exact hread
      simp only [asciiBytes, List.map_cons, List.map_nil, List.cons_append, List.nil_append,
        readHex4, hw, hx, hy, hz, hvalue]

/-! ## Characters -/

/-- The escapes of one letter. -/
def letterEscapes : List (Char × UInt8) :=
  [('"', 0x22), ('\\', 0x5C), ('/', 0x2F), ('\x08', 0x62), ('\x0C', 0x66), ('\n', 0x6E),
    ('\r', 0x72), ('\t', 0x74)]

/-- The bytes that spell a character inside a string. -/
inductive SpellsChar : Char → Bytes → Prop
  /-- The character stands for itself. -/
  | itself {c : Char} (hlow : 0x20 ≤ c.toNat) (hquote : c ≠ '"') (hback : c ≠ '\\') :
      SpellsChar c (String.utf8EncodeChar c)
  /-- An escape of one letter. -/
  | letter {c : Char} {b : UInt8} (h : (c, b) ∈ letterEscapes) : SpellsChar c [0x5C, b]
  /-- A numeric escape. -/
  | numeric {c : Char} {digits : Bytes} (hc : c.toNat < 0x10000) (h : Hex4 c.toNat digits) :
      SpellsChar c (0x5C :: 0x75 :: digits)
  /-- Two numeric escapes for the halves of a surrogate pair. -/
  | pair {c : Char} {high low : Bytes} (hc : 0x10000 ≤ c.toNat)
      (hhigh : Hex4 (0xD800 + (c.toNat - 0x10000) / 0x400) high)
      (hlow : Hex4 (0xDC00 + (c.toNat - 0x10000) % 0x400) low) :
      SpellsChar c (0x5C :: 0x75 :: (high ++ 0x5C :: 0x75 :: low))

/-- The bytes that spell a text inside a string. -/
inductive SpellsChars : List Char → Bytes → Prop
  | nil : SpellsChars [] []
  | cons {c : Char} {cs : List Char} {bytes rest : Bytes} (hc : SpellsChar c bytes)
      (hcs : SpellsChars cs rest) : SpellsChars (c :: cs) (bytes ++ rest)

/-- The bytes that spell a text between quotes. -/
def SpellsText (text : String) (bytes : Bytes) : Prop := SpellsChars text.toList bytes

/-! ## Reading -/

theorem simpleEscape?_letter {c : Char} {b : UInt8} (h : (c, b) ∈ letterEscapes) :
    b ≠ 0x75 ∧ simpleEscape? b = some c := by
  have hall : ∀ p ∈ letterEscapes, p.2 ≠ 0x75 ∧ simpleEscape? p.2 = some p.1 := by decide
  exact hall (c, b) h

theorem readEscape_letter {c : Char} {b : UInt8} (rest : Bytes) (h : (c, b) ∈ letterEscapes) :
    readEscape (b :: rest) = .ok (c, rest) := by
  obtain ⟨hmark, hletter⟩ := simpleEscape?_letter h
  rw [readEscape, if_neg hmark, hletter]

theorem readEscape_numeric {c : Char} {digits : Bytes} (rest : Bytes) (hc : c.toNat < 0x10000)
    (h : Hex4 c.toNat digits) : readEscape (0x75 :: (digits ++ rest)) = .ok (c, rest) := by
  have hscalar := toNat_scalar c
  rw [readEscape, if_pos rfl, readUnicodeEscape, readHex4_spells rest hc h]
  simp only [bind, Except.bind, pure, Except.pure, Bool.and_eq_true, Bool.or_eq_true,
    decide_eq_true_eq]
  rw [if_neg (by omega), if_pos (by omega), Char.ofNat_toNat]

theorem readEscape_pair {c : Char} {high low : Bytes} {n m : Nat} (rest : Bytes)
    (hc : 0x10000 ≤ c.toNat) (hn : 0xD800 + (c.toNat - 0x10000) / 0x400 = n)
    (hm : 0xDC00 + (c.toNat - 0x10000) % 0x400 = m) (hhigh : Hex4 n high) (hlow : Hex4 m low) :
    readEscape (0x75 :: (high ++ 0x5C :: 0x75 :: (low ++ rest))) = .ok (c, rest) := by
  have hscalar := toNat_scalar c
  have hchar : Char.ofNat (0x10000 + (n - 0xD800) * 1024 + (m - 0xDC00)) = c := by
    have hval : 0x10000 + (n - 0xD800) * 1024 + (m - 0xDC00) = c.toNat := by omega
    rw [hval, Char.ofNat_toNat]
  have hnotLow : ¬ (0xDC00 ≤ n ∧ n ≤ 0xDFFF) := by omega
  have hnotPlain : ¬ (n < 0xD800 ∨ 0xDBFF < n) := by omega
  have hsecond : ¬ (m < 0xDC00 ∨ 0xDFFF < m) := by omega
  rw [readEscape, if_pos rfl, readUnicodeEscape, readHex4_spells _ (by omega) hhigh]
  simp only [bind, Except.bind, pure, Except.pure, Bool.and_eq_true, Bool.or_eq_true,
    decide_eq_true_eq, expectInPair, if_true]
  rw [if_neg hnotLow, if_neg hnotPlain, readHex4_spells rest (by omega) hlow]
  simp only
  rw [if_neg hsecond, hchar]

/-- The spelling of a character is read as its bytes, in at most as many rounds as it has bytes. -/
theorem readStringBody_char {c : Char} {bytes : Bytes} (h : SpellsChar c bytes) :
    ∃ k ≤ bytes.length, ∀ fuel done rest, readStringBody (fuel + k) done (bytes ++ rest) =
      readStringBody fuel ((String.utf8EncodeChar c).reverse ++ done) rest := by
  have hescape : ∀ {fuel : Nat} {done tail rest : Bytes}, readEscape tail = .ok (c, rest) →
      readStringBody (fuel + 1) done (0x5C :: tail) =
        readStringBody fuel ((String.utf8EncodeChar c).reverse ++ done) rest := by
    intro fuel done tail rest h
    rw [readStringBody, if_neg (by decide), if_pos rfl, h]
  cases h with
  | itself hlow hquote hback =>
      exact ⟨_, Nat.le_refl _, fun fuel done rest => readStringBody_raw fuel done _ rest
        fun b hb => isRaw_of_mem_utf8EncodeChar hlow hquote hback hb⟩
  | letter h => exact ⟨1, by simp, fun _ _ rest => hescape (readEscape_letter rest h)⟩
  | numeric hc h => exact ⟨1, by simp, fun _ _ rest => hescape (readEscape_numeric rest hc h)⟩
  | pair hc hhigh hlow =>
      refine ⟨1, by simp, fun _ _ rest => ?_⟩
      rw [List.cons_append, List.cons_append, List.append_assoc, List.cons_append,
        List.cons_append]
      exact hescape (readEscape_pair rest hc rfl rfl hhigh hlow)

/-- A spelling is read up to the closing quote. -/
theorem readStringBody_chars {cs : List Char} {bytes : Bytes} (h : SpellsChars cs bytes)
    (fuel : Nat) (done rest : Bytes) (hfuel : bytes.length < fuel) :
    readStringBody fuel done (bytes ++ 0x22 :: rest) =
      .ok (done.reverse ++ cs.flatMap String.utf8EncodeChar, rest) := by
  induction h generalizing fuel done with
  | nil =>
      obtain ⟨fuel, rfl⟩ := Nat.exists_eq_succ_of_ne_zero (by omega : fuel ≠ 0)
      rw [List.nil_append, readStringBody, if_pos rfl, List.flatMap_nil, List.append_nil]
  | @cons c cs bytes tail hc _ ih =>
      obtain ⟨k, hk, hread⟩ := readStringBody_char hc
      rw [List.length_append] at hfuel
      obtain ⟨fuel, rfl⟩ := Nat.exists_eq_add_of_le' (by omega : k ≤ fuel)
      rw [List.append_assoc, hread, ih _ _ (by omega), List.reverse_append, List.reverse_reverse,
        List.append_assoc, List.flatMap_cons]

/-- A string whose opening quote has been read is the text that it spells. -/
theorem readString_of_spells {text : String} {bytes : Bytes} (h : SpellsText text bytes)
    (rest : Bytes) : readString (bytes ++ 0x22 :: rest) = .ok (text, rest) := by
  have hbody := readStringBody_chars h ((bytes ++ 0x22 :: rest).length + 1) [] rest
    (by rw [List.length_append]; omega)
  have hdecode : Text.decode (text.toList.flatMap String.utf8EncodeChar) = .ok text :=
    Text.decode_encode text
  rw [readString, hbody]
  simp only [List.reverse_nil, List.nil_append, hdecode]

theorem SpellsChars.append {cs ds : List Char} {bytes rest : Bytes} (h : SpellsChars cs bytes)
    (hds : SpellsChars ds rest) : SpellsChars (cs ++ ds) (bytes ++ rest) := by
  induction h with
  | nil => exact hds
  | cons hc _ ih =>
      rw [List.cons_append, List.append_assoc]
      exact .cons hc ih

/-- Plain characters spell themselves. -/
theorem spellsChars_plain (cs : List Char) (h : ∀ c ∈ cs, isPlain c = true) :
    SpellsChars cs (asciiBytes cs) := by
  induction cs with
  | nil => exact .nil
  | cons c cs ih =>
      obtain ⟨hlow, hhigh, hquote, hback⟩ := isPlain_iff.1 (h c (by simp))
      have hc := SpellsChar.itself hlow hquote hback
      rw [utf8EncodeChar_ascii hhigh] at hc
      exact .cons hc (ih fun d hd => h d (by simp [hd]))

/-- A plain text spells itself. -/
theorem spellsText_plain (s : String) (h : ∀ c ∈ s.toList, isPlain c = true) :
    SpellsText s (asciiBytes s.toList) :=
  spellsChars_plain s.toList h

end ProductCatalog.Json
