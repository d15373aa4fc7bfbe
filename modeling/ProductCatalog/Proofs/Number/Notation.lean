import Mathlib.Tactic.SplitIfs
import ProductCatalog.Number.Shortest
import ProductCatalog.Proofs.Json.Members

/-!
# The notation of a number is a number of JSON

A number other than zero has no zero as its first digit: the grid on which
its digits are looked for is never so coarse that the number lies between
zero and the first point.  So its digits may stand in front of a point, and
each of the four notations is one that the grammar of JSON has.

## Main results

* `Binary64.Shortest.digits_ne_zero` — the digits of a number other than zero.
* `Binary64.Shortest.wellFormed_json` — the notation of any number.
-/

namespace ProductCatalog.Json

open Text

/-! ## Digits in UTF-8 -/

/-- A digit is one byte, which is a digit. -/
theorem utf8EncodeChar_digit {c : Char} (h : Text.Digits.isDigit c = true) :
    ∃ b, String.utf8EncodeChar c = [b] ∧ isDigit b = true ∧ (b = 0x30 → c = '0') := by
  simp only [Text.Digits.isDigit, Bool.and_eq_true, decide_eq_true_eq] at h
  obtain ⟨hlow, hhigh⟩ := h
  have hlow' : 48 ≤ c.toNat := hlow
  have hhigh' : c.toNat ≤ 57 := hhigh
  have hdigit : ∀ n : Fin 58, 48 ≤ n.val → isDigit (UInt8.ofNat n.val) = true ∧
      (UInt8.ofNat n.val = 0x30 → n.val = 48) := by decide
  obtain ⟨hbyte, hzero⟩ := hdigit ⟨c.toNat, by omega⟩ hlow'
  exact ⟨_, utf8EncodeChar_ascii (by omega), hbyte, fun heq => Char.toNat_inj.1 (hzero heq)⟩

theorem digits_utf8 {cs : List Char} (hne : cs ≠ [])
    (h : ∀ c ∈ cs, Text.Digits.isDigit c = true) :
    Digits (cs.flatMap String.utf8EncodeChar) := by
  cases cs with
  | nil => exact absurd rfl hne
  | cons c cs =>
      obtain ⟨b, hb, hdigit, -⟩ := utf8EncodeChar_digit (h c (by simp))
      rw [List.flatMap_cons, hb]
      refine .mk hdigit fun d hd => ?_
      obtain ⟨c', hc', hmem⟩ := List.mem_flatMap.1 hd
      obtain ⟨b', hb', hdigit', -⟩ := utf8EncodeChar_digit (h c' (by simp [hc']))
      rw [hb', List.mem_singleton] at hmem
      exact hmem ▸ hdigit'

/-- Digits of which the first is not zero may stand before a point. -/
theorem whole_utf8 {cs : List Char} (hne : cs ≠ [])
    (h : ∀ c ∈ cs, Text.Digits.isDigit c = true) (hhead : cs.head? ≠ some '0') :
    Whole (cs.flatMap String.utf8EncodeChar) := by
  have hdigits := digits_utf8 hne h
  cases cs with
  | nil => exact absurd rfl hne
  | cons c cs =>
      obtain ⟨b, hb, -, hzero⟩ := utf8EncodeChar_digit (h c (by simp))
      rw [List.flatMap_cons, hb] at hdigits ⊢
      exact .digits (fun heq => hhead (congrArg some (hzero heq))) hdigits

/-- A single zero behind the point. -/
theorem places_zero : Places [0x2E, 0x30] :=
  .some (.mk (by decide) fun _ h => absurd h List.not_mem_nil)

end ProductCatalog.Json

namespace ProductCatalog.Binary64.Shortest

open Text

/-! ## The digits of a number other than zero -/

theorem strip_digits_ne_zero {fuel d : Nat} {e : Int} (h : d ≠ 0) :
    (strip fuel d e).digits ≠ 0 := by
  induction fuel generalizing d e with
  | zero => exact h
  | succ fuel ih =>
      rw [strip]
      split
      · next htens =>
          have hten : d % 10 = 0 := by
            simp only [Bool.and_eq_true, decide_eq_true_eq] at htens
            exact htens.1
          apply ih
          omega
      · exact h

theorem search_digits_ne_zero {x : Binary64} {num den : Nat} {k : Int} {left count : Nat}
    (hlast : (neighbours num den (k - (left + count : Nat))).headD 0 ≠ 0) :
    (search x num den k left count).digits ≠ 0 := by
  induction left generalizing count with
  | zero =>
      rw [search]
      rwa [Nat.zero_add] at hlast
  | succ left ih =>
      rw [search]
      split
      · next d hfind =>
          have hd := List.find?_some hfind
          simp only [Bool.and_eq_true, bne_iff_ne] at hd
          exact strip_digits_ne_zero hd.1
      · refine ih ?_
        rwa [show left + (count + 1) = left + 1 + count by omega]

/-- A number that reaches the grid has a neighbour other than zero on it. -/
theorem neighbours_headD_ne_zero {num den : Nat} {e : Int} (hden : 0 < den)
    (hreach : (if e < 0 then den else den * 10 ^ e.natAbs) ≤
      if e < 0 then num * 10 ^ e.natAbs else num) :
    (neighbours num den e).headD 0 ≠ 0 := by
  have hunit : 0 < if e < 0 then den else den * 10 ^ e.natAbs := by
    split
    · exact hden
    · exact Nat.mul_pos hden (Nat.pow_pos (by decide))
  unfold neighbours
  generalize (if e < 0 then den else den * 10 ^ e.natAbs) = d at hreach hunit
  generalize (if e < 0 then num * 10 ^ e.natAbs else num) = n at hreach
  have hq : n / d ≠ 0 := Nat.pos_iff_ne_zero.1 (Nat.div_pos hreach hunit)
  dsimp only
  split_ifs <;> first | exact hq | exact Nat.succ_ne_zero _

/-- Seventeen digits below the magnitude of a number, the grid is not too coarse for it. -/
theorem reaches_grid {num den : Nat} (hnum : num ≠ 0) (hden : 0 < den) :
    (if magnitude num den - 17 < 0 then den else den * 10 ^ (magnitude num den - 17).natAbs) ≤
      if magnitude num den - 17 < 0 then num * 10 ^ (magnitude num den - 17).natAbs else num := by
  unfold magnitude
  by_cases hle : den ≤ num
  · rw [if_pos hle]
    by_cases he : ((width (num / den) : Nat) : Int) - 17 < 0
    · rw [if_pos he, if_pos he]
      exact Nat.le_trans hle (Nat.le_mul_of_pos_right _ (Nat.pow_pos (by decide)))
    · rw [if_neg he, if_neg he]
      have hquotient : num / den ≠ 0 := Nat.pos_iff_ne_zero.1 (Nat.div_pos hle hden)
      have hwidth : 10 ^ width (num / den) ≤ num / den * 10 := Digits.pow_length_ofNat_le hquotient
      have hpower : 10 ^ ((width (num / den) : Int) - 17).natAbs * 10 ≤ 10 ^ width (num / den) := by
        rw [← Nat.pow_succ]
        exact Nat.pow_le_pow_right (by decide) (by omega)
      calc den * 10 ^ ((width (num / den) : Int) - 17).natAbs
          ≤ den * (num / den) := Nat.mul_le_mul_left _ (by omega)
        _ ≤ num := Nat.mul_div_le num den
  · rw [if_neg hle]
    generalize hw : width ((den + num - 1) / num - 1) = w
    have he : (1 - (w : Int)) - 17 < 0 := by omega
    rw [if_pos he, if_pos he]
    have hceil : (den + num - 1) / num ≤ 10 ^ w := by
      have hlt := Digits.lt_pow_length_ofNat ((den + num - 1) / num - 1)
      rw [← width, hw] at hlt
      omega
    have hcover : den ≤ num * ((den + num - 1) / num) := by
      have hdiv := Nat.div_add_mod (den + num - 1) num
      have hmod := Nat.mod_lt (den + num - 1) (Nat.pos_of_ne_zero hnum)
      omega
    calc den ≤ num * ((den + num - 1) / num) := hcover
      _ ≤ num * 10 ^ w := Nat.mul_le_mul_left _ hceil
      _ ≤ num * 10 ^ (1 - (w : Int) - 17).natAbs :=
        Nat.mul_le_mul_left _ (Nat.pow_le_pow_right (by decide) (by omega))

/-- The digits of a number other than zero spell no zero. -/
theorem digits_ne_zero {mantissa : Nat} (exponent : Int) (h : mantissa ≠ 0) :
    (digits mantissa exponent).digits ≠ 0 := by
  have hratio : (ratio mantissa exponent).1 ≠ 0 ∧ 0 < (ratio mantissa exponent).2 := by
    unfold ratio
    split
    · exact ⟨h, Nat.pow_pos (by decide)⟩
    · exact ⟨Nat.mul_ne_zero h (Nat.pos_iff_ne_zero.1 (Nat.pow_pos (by decide))), Nat.one_pos⟩
  exact search_digits_ne_zero
    (neighbours_headD_ne_zero hratio.2 (reaches_grid hratio.1 hratio.2))

/-! ## Notation -/

open Json

section

variable {ds : List Char} (hne : ds ≠ []) (hall : ∀ c ∈ ds, Text.Digits.isDigit c = true)
  (hhead : ds.head? ≠ some '0')

theorem isDigit_of_mem_zeros {k : Nat} {c : Char} (h : c ∈ List.replicate k '0') :
    Text.Digits.isDigit c = true := by
  rw [List.eq_of_mem_replicate h]
  decide

include hne hall

/-- Behind a point there may be any digits. -/
theorem magnitude_small (zeros : Nat) :
    Magnitude (('0' :: '.' :: (List.replicate zeros '0' ++ ds)).flatMap String.utf8EncodeChar) := by
  have hplaces : Digits ((List.replicate zeros '0' ++ ds).flatMap String.utf8EncodeChar) := by
    refine digits_utf8 (by simp [hne]) fun c hc => ?_
    exact (List.mem_append.1 hc).elim isDigit_of_mem_zeros (hall c)
  have hnumber := Magnitude.mk .zero (.some hplaces) .none
  rwa [List.append_nil] at hnumber

include hhead

/-- Digits and zeros in front of the point. -/
theorem magnitude_whole (zeros : Nat) :
    Magnitude ((ds ++ List.replicate zeros '0' ++ ['.', '0']).flatMap String.utf8EncodeChar) := by
  have hdigits : Whole ((ds ++ List.replicate zeros '0').flatMap String.utf8EncodeChar) := by
    refine whole_utf8 (by simp [hne]) (fun c hc => ?_) ?_
    · exact (List.mem_append.1 hc).elim (hall c) isDigit_of_mem_zeros
    · rwa [List.head?_append, Option.or_of_isSome (by simp [hne])]
  have hnumber := Magnitude.mk hdigits places_zero .none
  rw [List.flatMap_append]
  exact hnumber

/-- A point between two digits. -/
theorem magnitude_mixed {n : Nat} (hpos : 0 < n) (hn : n < ds.length) :
    Magnitude ((ds.take n ++ '.' :: ds.drop n).flatMap String.utf8EncodeChar) := by
  have hdigits : Whole ((ds.take n).flatMap String.utf8EncodeChar) := by
    refine whole_utf8 ?_ (fun c hc => hall c (List.mem_of_mem_take hc)) ?_
    · rw [ne_eq, List.take_eq_nil_iff, not_or]
      exact ⟨by omega, hne⟩
    · rwa [List.head?_take, if_neg (by omega)]
  have hplaces : Digits ((ds.drop n).flatMap String.utf8EncodeChar) := by
    refine digits_utf8 ?_ fun c hc => hall c (List.mem_of_mem_drop hc)
    rw [ne_eq, List.drop_eq_nil_iff]
    omega
  have hnumber := Magnitude.mk hdigits (.some hplaces) .none
  rw [List.flatMap_append]
  rwa [List.append_nil] at hnumber

/-- One digit in front of the point, and an exponent. -/
theorem magnitude_power {sign : Char} (n : Nat)
    (hsign : String.utf8EncodeChar sign ∈ [[], [0x2B], [0x2D]]) :
    Magnitude ((pointed ds ++ 'e' :: sign :: Text.Digits.ofNat n).flatMap
      String.utf8EncodeChar) := by
  have hletter : String.utf8EncodeChar 'e' = [0x65] := by decide
  have hdot : String.utf8EncodeChar '.' = [0x2E] := by decide
  have hpower := Power.some (.inl rfl) hsign
    (digits_utf8 (Text.Digits.ofNat_ne_nil n) (List.all_eq_true.1 (Text.Digits.ofNat_isDigit n)))
  cases ds with
  | nil => exact absurd rfl hne
  | cons d rest =>
      have hfirst : Whole ([d].flatMap String.utf8EncodeChar) :=
        whole_utf8 (List.cons_ne_nil _ _) (fun c hc => hall c (by simp_all)) hhead
      cases rest with
      | nil =>
          have hnumber := Magnitude.mk hfirst .none hpower
          simpa [pointed, hletter] using hnumber
      | cons d' rest =>
          have hplaces : Digits ((d' :: rest).flatMap String.utf8EncodeChar) :=
            digits_utf8 (List.cons_ne_nil _ _) fun c hc => hall c (List.mem_cons_of_mem _ hc)
          have hnumber := Magnitude.mk hfirst (.some hplaces) hpower
          simpa [pointed, hletter, hdot] using hnumber

end

/-- The digits of a positive number are written as a number. -/
theorem Digits10.magnitude_json {d : Digits10} (h : d.digits ≠ 0) :
    Magnitude (d.json.flatMap String.utf8EncodeChar) := by
  have hne : Text.Digits.ofNat d.digits ≠ [] := Text.Digits.ofNat_ne_nil _
  have hall : ∀ c ∈ Text.Digits.ofNat d.digits, Text.Digits.isDigit c = true :=
    List.all_eq_true.1 (Text.Digits.ofNat_isDigit _)
  have hhead : (Text.Digits.ofNat d.digits).head? ≠ some '0' := Text.Digits.head?_ofNat h
  have hlength : 0 < (Text.Digits.ofNat d.digits).length := List.length_pos_iff.2 hne
  unfold json
  dsimp only
  split
  · exact magnitude_whole hne hall hhead _
  split
  · next hwhole hmixed =>
      simp only [Bool.and_eq_true, decide_eq_true_eq] at hwhole hmixed
      exact magnitude_mixed hne hall hhead (by omega) (by omega)
  split
  · exact magnitude_small hne hall _
  · refine magnitude_power hne hall hhead _ ?_
    split <;> decide

/-- The notation of any number is a value of JSON. -/
theorem wellFormed_json (x : Binary64) : WellFormed .value (Text.encode (json x)) := by
  have hnull : WellFormed .value (Text.encode "null") := .scalar .null
  have hsigned : ∀ (negative : Bool) (cs : List Char),
      Magnitude (cs.flatMap String.utf8EncodeChar) →
        WellFormed .value (Text.encode (String.ofList (signed negative cs))) := by
    intro negative cs h
    have hminus : String.utf8EncodeChar '-' = [0x2D] := by decide
    rw [Text.encode, String.toList_ofList]
    cases negative with
    | false => exact .scalar (.natural h)
    | true =>
        rw [signed, if_pos rfl, List.flatMap_cons, hminus]
        exact .scalar (.negative h)
  cases x with
  | nan => exact hnull
  | infinite => exact hnull
  | finite negative mantissa exponent =>
      rw [json]
      refine hsigned negative _ ?_
      by_cases hzero : mantissa = 0
      · rw [if_pos hzero]
        have hnumber := Magnitude.mk .zero places_zero .none
        exact hnumber
      · rw [if_neg hzero]
        exact (digits mantissa exponent).magnitude_json (digits_ne_zero exponent hzero)

end ProductCatalog.Binary64.Shortest
