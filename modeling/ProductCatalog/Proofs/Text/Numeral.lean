import ProductCatalog.Text.Blank
import ProductCatalog.Text.Digits

/-!
# Numerals

A numeral is a non-empty string of digits, possibly after a sign.  It denotes
an integer of any magnitude; leading zeros do not matter.  A text writes an
integer if it is a numeral between blanks.

Neither digits nor signs are blank.  So the trimmed text is the numeral, and
the reader gives the integer of every text that writes one, and of no other.

## Main definitions

* `Digits.Spell` — the digit strings that spell a natural number.
* `Numeral` — the numerals of an integer.
* `Writes` — the texts that write an integer.

## Main results

* `Digits.nat?_eq_some_iff`, `Digits.int?_eq_some_iff` — what is read.
* `int?_trim_eq_some_iff` — what is read of a text between blanks.
* `Writes.unique` — a text writes at most one integer.
-/

namespace ProductCatalog.Text

/-! ## Digit strings -/

namespace Digits

/-- The digit strings that spell a natural number. -/
structure Spell (digits : List Char) (n : Nat) : Prop where
  ne_nil : digits ≠ []
  digit : ∀ c ∈ digits, isDigit c = true
  value_eq : value digits = n

/-- Digit strings are read as the number that they spell, and nothing else is. -/
theorem nat?_eq_some_iff {cs : List Char} {n : Nat} : nat? cs = some n ↔ Spell cs n := by
  unfold nat?
  constructor
  · intro h
    split at h
    · cases h
    · next hdigits =>
        simp only [Bool.or_eq_true, List.isEmpty_iff, Bool.not_eq_true', not_or,
          Bool.not_eq_false, List.all_eq_true] at hdigits
        exact ⟨hdigits.1, hdigits.2, Option.some.inj h⟩
  · rintro ⟨hne, hdigit, rfl⟩
    have hall : cs.all isDigit = true := List.all_eq_true.2 hdigit
    rw [if_neg]
    simp [hne, hall]

/-- The digits written for a number spell it. -/
theorem spell_ofNat (n : Nat) : Spell (ofNat n) n :=
  nat?_eq_some_iff.1 (nat?_ofNat n)

end Digits

/-! ## Signs -/

/-- The numerals of an integer. -/
inductive Numeral : List Char → Int → Prop
  | unsigned {digits : List Char} {n : Nat} (h : Digits.Spell digits n) : Numeral digits n
  | positive {digits : List Char} {n : Nat} (h : Digits.Spell digits n) :
      Numeral ('+' :: digits) n
  | negative {digits : List Char} {n : Nat} (h : Digits.Spell digits n) :
      Numeral ('-' :: digits) (-n)

namespace Digits

theorem isDigit_iff {c : Char} : isDigit c = true ↔ 48 ≤ c.toNat ∧ c.toNat ≤ 57 := by
  rw [isDigit, Bool.and_eq_true, decide_eq_true_iff, decide_eq_true_iff]
  exact Iff.rfl

/-- No digit string begins with a sign. -/
theorem Spell.head_ne {c : Char} {digits : List Char} {n : Nat} (h : Spell (c :: digits) n) :
    c ≠ '+' ∧ c ≠ '-' := by
  have hc := h.digit c (List.mem_cons_self ..)
  constructor
  · rintro rfl
    exact absurd hc (by decide)
  · rintro rfl
    exact absurd hc (by decide)

/-- Numerals are read as the integer that they denote, and nothing else is. -/
theorem int?_eq_some_iff {cs : List Char} {n : Int} : int? cs = some n ↔ Numeral cs n := by
  constructor
  · intro h
    unfold int? at h
    split at h
    · obtain ⟨m, hm, rfl⟩ := Option.map_eq_some_iff.1 h
      exact .positive (nat?_eq_some_iff.1 hm)
    · obtain ⟨m, hm, rfl⟩ := Option.map_eq_some_iff.1 h
      exact .negative (nat?_eq_some_iff.1 hm)
    · obtain ⟨m, hm, rfl⟩ := Option.map_eq_some_iff.1 h
      exact .unsigned (nat?_eq_some_iff.1 hm)
  · intro h
    cases h with
    | positive h => rw [int?, nat?_eq_some_iff.2 h]; rfl
    | negative h => rw [int?, nat?_eq_some_iff.2 h]; rfl
    | unsigned h =>
        -- the signs are told apart from digit strings by the first character
        match cs, h with
        | [], h => exact absurd rfl h.ne_nil
        | c :: digits, h =>
            obtain ⟨hplus, hminus⟩ := h.head_ne
            unfold int?
            split
            · next heq => exact absurd (List.cons.inj heq).1 hplus
            · next heq => exact absurd (List.cons.inj heq).1 hminus
            · rw [nat?_eq_some_iff.2 h]
              rfl

end Digits

/-- A digit string is read as a number of so many bits if the number that it spells has them. -/
theorem Digits.Spell.unsigned? {digits : List Char} {n : Nat} (h : Spell digits n) (bits : Nat) :
    Digits.unsigned? bits digits = if n < 2 ^ bits then some n else none := by
  have hread : (nat? digits).filter (· < 2 ^ bits) = if n < 2 ^ bits then some n else none := by
    rw [nat?_eq_some_iff.2 h, Option.filter_some]
    simp only [decide_eq_true_eq]
  unfold Digits.unsigned?
  split
  · exact absurd rfl h.head_ne.1
  · exact hread

/-! ## Blanks around a numeral -/

/-- The characters of a numeral, of which there is at least one, are not blank. -/
theorem Numeral.not_blank {cs : List Char} {n : Int} (h : Numeral cs n) :
    cs ≠ [] ∧ ∀ c ∈ cs, isBlank c = false := by
  have hdigit : ∀ c, Digits.isDigit c = true → isBlank c = false := by
    intro c hc
    rw [Digits.isDigit_iff] at hc
    simp only [isBlank, Bool.or_eq_false_iff, Bool.and_eq_false_iff, decide_eq_false_iff_not]
    omega
  have hdigits : ∀ {digits : List Char} {m : Nat}, Digits.Spell digits m →
      ∀ c ∈ digits, isBlank c = false := fun h c hc => hdigit c (h.digit c hc)
  cases h with
  | unsigned h => exact ⟨h.ne_nil, hdigits h⟩
  | positive h =>
      exact ⟨by simp, List.forall_mem_cons.2 ⟨by decide, hdigits h⟩⟩
  | negative h =>
      exact ⟨by simp, List.forall_mem_cons.2 ⟨by decide, hdigits h⟩⟩

/-- Blanks in front are trimmed up to the first character that is none. -/
theorem trimStart_append {w cs : List Char} (rest : List Char) (hw : ∀ c ∈ w, isBlank c = true)
    (hne : cs ≠ []) (hcs : ∀ c ∈ cs, isBlank c = false) :
    trimStart (w ++ (cs ++ rest)) = cs ++ rest := by
  match cs, hne with
  | c :: cs, _ =>
      have hc : isBlank c = false := hcs c (List.mem_cons_self ..)
      rw [trimStart, List.dropWhile_append_of_pos hw, List.cons_append,
        List.dropWhile_cons_of_neg (by rw [hc]; decide)]

/-- Blanks on both sides are trimmed. -/
theorem trim_append {w cs w' : List Char} (hw : ∀ c ∈ w, isBlank c = true)
    (hw' : ∀ c ∈ w', isBlank c = true) (hne : cs ≠ []) (hcs : ∀ c ∈ cs, isBlank c = false) :
    trim (w ++ (cs ++ w')) = cs := by
  have hblank : ∀ c ∈ w'.reverse, isBlank c = true := fun c hc => hw' c (List.mem_reverse.1 hc)
  have hsolid : ∀ c ∈ cs.reverse, isBlank c = false := fun c hc => hcs c (List.mem_reverse.1 hc)
  have hback := trimStart_append [] hblank (mt List.reverse_eq_nil_iff.1 hne) hsolid
  rw [List.append_nil] at hback
  rw [trim, trimStart_append w' hw hne hcs, List.reverse_append, hback, List.reverse_reverse]

/-- What is trimmed off are blanks. -/
theorem exists_blanks_of_trimStart (cs : List Char) :
    ∃ w, (∀ c ∈ w, isBlank c = true) ∧ cs = w ++ trimStart cs :=
  ⟨cs.takeWhile isBlank, List.all_eq_true.1 List.all_takeWhile,
    List.takeWhile_append_dropWhile.symm⟩

/-- The texts that write an integer: its numerals between blanks. -/
inductive Writes (text : String) (n : Int) : Prop
  | mk {w numeral w' : List Char} (htext : text.toList = w ++ (numeral ++ w'))
      (hw : ∀ c ∈ w, isBlank c = true) (hw' : ∀ c ∈ w', isBlank c = true)
      (h : Numeral numeral n) : Writes text n

/-- A trimmed text is read as the integer that the text writes, if it writes one. -/
theorem int?_trim_eq_some_iff {text : String} {n : Int} :
    Digits.int? (trim text.toList) = some n ↔ Writes text n := by
  constructor
  · intro h
    obtain ⟨w, hw, hfront⟩ := exists_blanks_of_trimStart text.toList
    obtain ⟨w', hw', hback⟩ := exists_blanks_of_trimStart (trimStart text.toList).reverse
    have hrest : trimStart text.toList = trim text.toList ++ w'.reverse := by
      rw [trim, ← List.reverse_append, ← hback, List.reverse_reverse]
    refine ⟨?_, hw, fun c hc => hw' c (List.mem_reverse.1 hc), Digits.int?_eq_some_iff.1 h⟩
    rw [← hrest]
    exact hfront
  · rintro ⟨htext, hw, hw', h⟩
    obtain ⟨hne, hcs⟩ := h.not_blank
    rw [htext, trim_append hw hw' hne hcs, Digits.int?_eq_some_iff.2 h]

/-- A text writes at most one integer. -/
theorem Writes.unique {text : String} {m n : Int} (hm : Writes text m) (hn : Writes text n) :
    m = n := by
  rw [← int?_trim_eq_some_iff] at hm hn
  exact Option.some.inj (hm.symm.trans hn)

end ProductCatalog.Text
