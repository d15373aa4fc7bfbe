import ProductCatalog.Product.Request
import ProductCatalog.Proofs.Text.Numeral

/-!
# The window that a listing request asks for

A raw value of a listing request asks for an integer if its text writes one.
What is asked for is followed up to the greatest signed number of 64 bits: a
positive limit is cut off at 100, a positive offset is taken as it is, and
everything else is replaced by the defaults.  An integer above that is not
cut off.  It is replaced by the defaults as well, like a text that writes
none.

So among the integers of 64 bits a greater limit gives no smaller page, and a
greater offset does not move the window back; beyond them both happen.

## Main definitions

* `Asks` — the integers that raw values ask for.

## Main results

* `elim_lenientInt_of_asks` — what is made of an integer that is asked for.
* `windows_exact` — the window of every request.
* `windows_shrink_of_long_numerals` — a greater limit with a smaller page.
-/

namespace ProductCatalog

open Text

/-- The integers that raw values ask for. -/
def Asks (raw : Option String) (n : Int) : Prop := ∃ text ∈ raw, Writes text n

/-! ## Raw values -/

/-- An integer that is asked for is read if it has 64 bits. -/
theorem lenientInt_of_asks {raw : Option String} {n : Int} (h : Asks raw n) :
    lenientInt raw = if -2 ^ 63 ≤ n ∧ n < 2 ^ 63 then some n else none := by
  obtain ⟨text, rfl, hwrites⟩ := h
  rw [lenientInt, Option.bind_some, Digits.int64?, int?_trim_eq_some_iff.2 hwrites,
    Option.filter_some]
  simp only [Bool.and_eq_true, decide_eq_true_eq]

/-- Nothing is read where no integer is asked for. -/
theorem lenientInt_eq_none {raw : Option String} (h : ¬ ∃ n, Asks raw n) :
    lenientInt raw = none := by
  cases raw with
  | none => rfl
  | some text =>
      cases hread : Digits.int? (trim text.toList) with
      | none => rw [lenientInt, Option.bind_some, Digits.int64?, hread, Option.filter_none]
      | some n => exact absurd ⟨n, text, rfl, int?_trim_eq_some_iff.1 hread⟩ h

/-- What is made of a positive integer is made of those below `2 ^ 63` only; for every other that
is asked for, the default is taken. -/
theorem elim_lenientInt_of_asks {raw : Option String} {n : Int} (h : Asks raw n) (default : Nat)
    (make : Int → Nat) :
    (lenientInt raw).elim default (fun n => if 0 < n then make n else default) =
      if 0 < n ∧ n < 2 ^ 63 then make n else default := by
  rw [lenientInt_of_asks h]
  by_cases hpos : 0 < n
  · by_cases hfits : n < 2 ^ 63
    · rw [if_pos ⟨by omega, hfits⟩, if_pos ⟨hpos, hfits⟩]
      exact if_pos hpos
    · rw [if_neg (not_and_of_not_right _ hfits), if_neg (not_and_of_not_right _ hfits)]
      rfl
  · rw [if_neg (not_and_of_not_left _ hpos)]
    split
    · exact if_neg hpos
    · rfl

/-! ## Windows -/

section Fields

variable {limit offset : Option String} {n : Int}

theorem limit_listWindow (limit offset : Option String) :
    (listWindow limit offset).limit =
      (lenientInt limit).elim 10 fun n => if 0 < n then min n.toNat 100 else 10 := by
  rw [listWindow]
  cases lenientInt limit <;> rfl

theorem offset_listWindow (limit offset : Option String) :
    (listWindow limit offset).offset =
      (lenientInt offset).elim 0 fun n => if 0 < n then n.toNat else 0 := by
  rw [listWindow]
  cases lenientInt offset <;> rfl

/-- The limit for the integer that is asked for. -/
theorem limit_of_asks (h : Asks limit n) :
    (listWindow limit offset).limit = if 0 < n ∧ n < 2 ^ 63 then min n.toNat 100 else 10 := by
  rw [limit_listWindow]
  exact elim_lenientInt_of_asks h 10 fun n => min n.toNat 100

/-- The offset for the integer that is asked for. -/
theorem offset_of_asks (h : Asks offset n) :
    (listWindow limit offset).offset = if 0 < n ∧ n < 2 ^ 63 then n.toNat else 0 := by
  rw [offset_listWindow]
  exact elim_lenientInt_of_asks h 0 Int.toNat

end Fields

/--
**The window of every request.** An integer below `2 ^ 63` that is asked for
as the limit is cut off at 100 if it is positive, and one that is asked for as
the offset is the offset if it is positive.  In all other cases the limit is
10 and the offset is 0: for an integer that is not positive, for one from
`2 ^ 63` on, and where none is asked for.  So of two integers below `2 ^ 63`
the greater one gives no smaller page, if both are positive, and no earlier
window.
-/
theorem windows_exact (limit offset : Option String) :
    (∀ n, Asks limit n → (listWindow limit offset).limit =
      if 0 < n ∧ n < 2 ^ 63 then min n.toNat 100 else 10) ∧
    ((¬ ∃ n, Asks limit n) → (listWindow limit offset).limit = 10) ∧
    (∀ n, Asks offset n → (listWindow limit offset).offset =
      if 0 < n ∧ n < 2 ^ 63 then n.toNat else 0) ∧
    ((¬ ∃ n, Asks offset n) → (listWindow limit offset).offset = 0) ∧
    (∀ m n limit', Asks limit m → Asks limit' n → 0 < m → m ≤ n → n < 2 ^ 63 →
      (listWindow limit offset).limit ≤ (listWindow limit' offset).limit) ∧
    ∀ m n offset', Asks offset m → Asks offset' n → m ≤ n → n < 2 ^ 63 →
      (listWindow limit offset).offset ≤ (listWindow limit offset').offset := by
  refine ⟨fun n h => limit_of_asks h, fun h => ?_, fun n h => offset_of_asks h, fun h => ?_,
    fun m n limit' hm hn hpos hle hfits => ?_, fun m n offset' hm hn hle hfits => ?_⟩
  · rw [limit_listWindow, lenientInt_eq_none h]
    rfl
  · rw [offset_listWindow, lenientInt_eq_none h]
    rfl
  · rw [limit_of_asks hm, limit_of_asks hn, if_pos ⟨hpos, by omega⟩, if_pos ⟨by omega, hfits⟩]
    omega
  · rw [offset_of_asks hm, offset_of_asks hn]
    by_cases hpos : 0 < m
    · rw [if_pos ⟨hpos, by omega⟩, if_pos ⟨by omega, hfits⟩]
      omega
    · rw [if_neg (not_and_of_not_left _ hpos)]
      exact Nat.zero_le _

/-- A sign, leading zeros and blanks around them do not matter; a negative offset is none. -/
theorem windows_exact_of_signs :
    Asks (some "\t+0250 ") 250 ∧ Asks (some "-3") (-3) ∧
      (listWindow (some "\t+0250 ") (some "-3")).limit = 100 ∧
      (listWindow (some "\t+0250 ") (some "-3")).offset = 0 := by
  have hlimit : Asks (some "\t+0250 ") 250 :=
    ⟨_, rfl, int?_trim_eq_some_iff.1 (by decide +kernel)⟩
  have hoffset : Asks (some "-3") (-3) :=
    ⟨_, rfl, int?_trim_eq_some_iff.1 (by decide +kernel)⟩
  obtain ⟨hfirst, -, hsecond, -⟩ := windows_exact (some "\t+0250 ") (some "-3")
  exact ⟨hlimit, hoffset, hfirst 250 hlimit, hsecond (-3) hoffset⟩

/-- The limit `2 ^ 63 - 1` gives a page of 100 products, and the greater limit `2 ^ 63` a page of
10 instead; the offset `2 ^ 63` gives the first page. -/
theorem windows_shrink_of_long_numerals :
    Asks (some "9223372036854775807") (2 ^ 63 - 1) ∧ Asks (some "9223372036854775808") (2 ^ 63) ∧
      listWindow (some "9223372036854775807") (some "9223372036854775807") =
        ⟨100, 2 ^ 63 - 1⟩ ∧
      listWindow (some "9223372036854775808") (some "9223372036854775808") = ⟨10, 0⟩ ∧
      (listWindow (some "9223372036854775808") none).limit ≠ min (2 ^ 63) 100 := by
  have hless : Asks (some "9223372036854775807") (2 ^ 63 - 1) :=
    ⟨_, rfl, int?_trim_eq_some_iff.1 (by decide +kernel)⟩
  have hgreater : Asks (some "9223372036854775808") (2 ^ 63) :=
    ⟨_, rfl, int?_trim_eq_some_iff.1 (by decide +kernel)⟩
  exact ⟨hless, hgreater, by decide +kernel, by decide +kernel, by decide +kernel⟩

end ProductCatalog
