import ProductCatalog.Proofs.Product.Spelling

/-!
# The grammar of id texts

A text is an id if it is written in one of four forms: thirty-two hexadecimal
digits, five groups of 8, 4, 4, 4 and 12 of them with hyphens between the
groups, the same in braces, or the same after `urn:uuid:` in any case.  The
digits, which may be in either case, spell the number of the id.

The grammar looks at the characters only.  It is the same as the relation
between an id and its spellings, which starts from the digits that are
written for the id.

## Main definitions

* `HexRun`, `Hyphenated` — runs and groups of digits.
* `ProductId.Written` — the texts of the grammar, with their digits.

## Main results

* `ProductId.parse?_eq_some_iff_written` — what is read, and as which id.
* `ProductId.exists_of_written` — every text of the grammar is read.
-/

namespace ProductCatalog

open Text

/-! ## Digits -/

/-- Runs of hexadecimal digits in either case. -/
def HexRun (n : Nat) (cs : List Char) : Prop := cs.length = n ∧ ∀ c ∈ cs, isHexDigit c = true

instance (n : Nat) (cs : List Char) : Decidable (HexRun n cs) :=
  decidable_of_iff (cs.length = n ∧ cs.all isHexDigit = true) (and_congr_right' List.all_eq_true)

/-- A string spells a number in hexadecimal digits if it has nothing but these. -/
theorem hexFrom?_isSome_iff (high : Nat) (cs : List Char) :
    (hexFrom? high cs).isSome = true ↔ ∀ c ∈ cs, isHexDigit c = true := by
  induction cs generalizing high with
  | nil => simp [hexFrom?]
  | cons c cs ih =>
      rw [hexFrom?, List.forall_mem_cons, isHexDigit]
      cases hexValue? c with
      | none => simp
      | some v => simp [ih]

/-- A run of digits spells a number that fits it. -/
theorem HexRun.exists_number {n : Nat} {cs : List Char} (h : HexRun n cs) :
    ∃ m, hexFrom? 0 cs = some m ∧ m < 16 ^ n := by
  obtain ⟨hlen, hdigits⟩ := h
  obtain ⟨m, hm⟩ := Option.isSome_iff_exists.1 ((hexFrom?_isSome_iff 0 cs).2 hdigits)
  have hhigh := (anyCase_of_hexFrom? hm).2
  rw [hlen, Nat.div_eq_zero_iff] at hhigh
  have hpos : 0 < 16 ^ n := Nat.pow_pos (by decide)
  exact ⟨m, hm, by omega⟩

theorem HexRun.append {m n : Nat} {xs ys : List Char} (hx : HexRun m xs) (hy : HexRun n ys) :
    HexRun (m + n) (xs ++ ys) := by
  refine ⟨by rw [List.length_append, hx.1, hy.1], fun c hc => ?_⟩
  rcases List.mem_append.1 hc with hc | hc
  · exact hx.2 c hc
  · exact hy.2 c hc

/-- A run may be cut anywhere. -/
theorem HexRun.cut {m n : Nat} {cs : List Char} (h : HexRun (m + n) cs) :
    ∃ xs ys, cs = xs ++ ys ∧ HexRun m xs ∧ HexRun n ys := by
  obtain ⟨hlen, hdigits⟩ := h
  refine ⟨cs.take m, cs.drop m, (List.take_append_drop m cs).symm, ⟨?_, ?_⟩, ?_, ?_⟩
  · rw [List.length_take]
    omega
  · exact fun c hc => hdigits c (List.mem_of_mem_take hc)
  · rw [List.length_drop]
    omega
  · exact fun c hc => hdigits c (List.mem_of_mem_drop hc)

/-- Thirty-two digits with hyphens after the eighth, twelfth, sixteenth and twentieth. -/
inductive Hyphenated : (digits cs : List Char) → Prop
  | mk {a b c d e : List Char} (ha : HexRun 8 a) (hb : HexRun 4 b) (hc : HexRun 4 c)
      (hd : HexRun 4 d) (he : HexRun 12 e) :
      Hyphenated (a ++ (b ++ (c ++ (d ++ e))))
        (a ++ '-' :: (b ++ '-' :: (c ++ '-' :: (d ++ '-' :: e))))

namespace ProductId

variable {id : ProductId} {digits cs : List Char}

/-- The texts of the grammar, with their digits. -/
inductive Written (digits : List Char) : List Char → Prop
  | plain (h : HexRun 32 digits) : Written digits digits
  | hyphenated {cs : List Char} (h : Hyphenated digits cs) : Written digits cs
  | braced {cs : List Char} (h : Hyphenated digits cs) :
      Written digits ('\x7b' :: (cs ++ ['\x7d']))
  | named {mark cs : List Char} (hmark : mark.map Char.toLower = "urn:uuid:".toList)
      (h : Hyphenated digits cs) : Written digits (mark ++ cs)

/-! ## Without hyphens -/

/-- Thirty-two digits are read as their number. -/
theorem parseSimple?_eq_some_iff :
    parseSimple? cs = some id ↔ HexRun 32 cs ∧ hexFrom? 0 cs = some id.value := by
  constructor
  · intro h
    have hcase := anyCase_of_parseSimple? h
    have hlen : cs.length = 32 := hcase.length_eq.trans (length_hexPadded 32 id.value)
    have hread : hexFrom? 0 cs = some id.value := by
      have hsmall : id.value < 16 ^ 32 := id.value_lt
      rw [hcase.hexFrom?_eq, hexFrom?_hexPadded, Nat.zero_mul, Nat.zero_add,
        Nat.mod_eq_of_lt hsmall]
    refine ⟨⟨hlen, (hexFrom?_isSome_iff 0 cs).1 ?_⟩, hread⟩
    rw [hread]
    rfl
  · rintro ⟨⟨hlen, -⟩, hread⟩
    rw [parseSimple?, if_pos hlen, hread]
    exact dif_pos id.value_lt

/-! ## With hyphens -/

/-- A group is cut off in front of the others. -/
theorem grouped_append {n m : Nat} {ns : List Nat} {xs : List Char} (ys : List Char)
    (h : xs.length = n) :
    grouped (n :: m :: ns) (xs ++ ys) = xs ++ '-' :: grouped (m :: ns) ys := by
  rw [grouped_cons, List.take_left' h, List.drop_left' h]

/-- A hyphenated text is made of its digits by cutting them into groups. -/
theorem hyphenated_iff :
    Hyphenated digits cs ↔ HexRun 32 digits ∧ cs = grouped groups digits := by
  constructor
  · rintro ⟨ha, hb, hc, hd, he⟩
    refine ⟨ha.append (hb.append (hc.append (hd.append he))), ?_⟩
    rw [groups, grouped_append _ ha.1, grouped_append _ hb.1, grouped_append _ hc.1,
      grouped_append _ hd.1]
    rfl
  · rintro ⟨h, rfl⟩
    obtain ⟨a, rest, rfl, ha, h⟩ := HexRun.cut (m := 8) (n := 24) h
    obtain ⟨b, rest, rfl, hb, h⟩ := HexRun.cut (m := 4) (n := 20) h
    obtain ⟨c, rest, rfl, hc, h⟩ := HexRun.cut (m := 4) (n := 16) h
    obtain ⟨d, e, rfl, hd, he⟩ := HexRun.cut (m := 4) (n := 12) h
    rw [groups, grouped_append _ ha.1, grouped_append _ hb.1, grouped_append _ hc.1,
      grouped_append _ hd.1]
    exact .mk ha hb hc hd he

/-- Hyphenated texts are read as the number of their digits. -/
theorem parseHyphenated?_eq_some_iff :
    parseHyphenated? cs = some id ↔
      ∃ digits, Hyphenated digits cs ∧ hexFrom? 0 digits = some id.value := by
  rw [parseHyphenated?, Option.bind_eq_some_iff]
  constructor
  · rintro ⟨digits, hjoin, hread⟩
    obtain ⟨hrun, hvalue⟩ := parseSimple?_eq_some_iff.1 hread
    exact ⟨digits, hyphenated_iff.2 ⟨hrun, eq_grouped_of_ungrouped? hjoin⟩, hvalue⟩
  · rintro ⟨digits, hhyphenated, hvalue⟩
    obtain ⟨hrun, rfl⟩ := hyphenated_iff.1 hhyphenated
    exact ⟨digits, ungrouped?_grouped groups (by decide) digits hrun.1,
      parseSimple?_eq_some_iff.2 ⟨hrun, hvalue⟩⟩

/-! ## All forms -/

/-- The spellings of an id are the texts of the grammar with the digits of its number. -/
theorem spells_iff_written :
    id.Spells cs ↔ ∃ digits, Written digits cs ∧ hexFrom? 0 digits = some id.value := by
  have hhyphenated : ∀ {cs : List Char}, AnyCase id.chars cs ↔
      ∃ digits, Hyphenated digits cs ∧ hexFrom? 0 digits = some id.value := fun {cs} => by
    rw [← parseHyphenated?_eq_some_iff]
    exact ⟨parseHyphenated?_of_anyCase, anyCase_of_parseHyphenated?⟩
  constructor
  · intro h
    cases h with
    | simple h =>
        obtain ⟨hrun, hvalue⟩ := parseSimple?_eq_some_iff.1 (parseSimple?_of_anyCase h)
        exact ⟨cs, .plain hrun, hvalue⟩
    | hyphenated h =>
        obtain ⟨digits, hdigits, hvalue⟩ := hhyphenated.1 h
        exact ⟨digits, .hyphenated hdigits, hvalue⟩
    | braced h =>
        obtain ⟨digits, hdigits, hvalue⟩ := hhyphenated.1 h
        exact ⟨digits, .braced hdigits, hvalue⟩
    | named hmark h =>
        obtain ⟨digits, hdigits, hvalue⟩ := hhyphenated.1 h
        exact ⟨digits, .named hmark hdigits, hvalue⟩
  · rintro ⟨digits, hwritten, hvalue⟩
    cases hwritten with
    | plain hrun =>
        exact .simple (anyCase_of_parseSimple? (parseSimple?_eq_some_iff.2 ⟨hrun, hvalue⟩))
    | hyphenated h => exact .hyphenated (hhyphenated.2 ⟨digits, h, hvalue⟩)
    | braced h => exact .braced (hhyphenated.2 ⟨digits, h, hvalue⟩)
    | named hmark h => exact .named hmark (hhyphenated.2 ⟨digits, h, hvalue⟩)

/-- A text is read as an id if it is one of the grammar with the digits of the id's number. -/
theorem parse?_eq_some_iff_written {text : String} :
    parse? text = some id ↔
      ∃ digits, Written digits text.toList ∧ hexFrom? 0 digits = some id.value :=
  parse?_eq_some_iff.trans spells_iff_written

/-- The digits of every text of the grammar are those of an id. -/
theorem exists_of_written (h : Written digits cs) :
    ∃ id : ProductId, hexFrom? 0 digits = some id.value := by
  have hrun : HexRun 32 digits := by
    cases h with
    | plain hrun => exact hrun
    | hyphenated h => exact (hyphenated_iff.1 h).1
    | braced h => exact (hyphenated_iff.1 h).1
    | named _ h => exact (hyphenated_iff.1 h).1
  obtain ⟨n, hread, hsmall⟩ := hrun.exists_number
  exact ⟨⟨n, hsmall⟩, hread⟩

/-- A text is read if and only if it is one of the grammar. -/
theorem parse?_isSome_iff {text : String} :
    (parse? text).isSome = true ↔ ∃ digits, Written digits text.toList := by
  rw [Option.isSome_iff_exists]
  constructor
  · rintro ⟨id, hid⟩
    obtain ⟨digits, hdigits, -⟩ := parse?_eq_some_iff_written.1 hid
    exact ⟨digits, hdigits⟩
  · rintro ⟨digits, hdigits⟩
    obtain ⟨id, hid⟩ := exists_of_written hdigits
    exact ⟨id, parse?_eq_some_iff_written.2 ⟨digits, hdigits, hid⟩⟩

end ProductId

end ProductCatalog
