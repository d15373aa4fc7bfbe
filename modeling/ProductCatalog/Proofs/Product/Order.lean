import Mathlib.Data.List.Lex
import ProductCatalog.Proofs.Product.Spelling

/-!
# One order of ids

Ids are ordered as numbers.  Their sixteen octets, the most significant
first, and their canonical texts are ordered lexicographically, and the three
orders are one.

In a fixed number of places the digits of the lesser of two numbers come
first lexicographically, in any base and with any signs for the digits that
grow with their values.  The octets are the digits in base 256, and the
canonical text has the digits in base 16.  The hyphens between its groups
stand at the same places in every text, so that they do not matter.

## Main definitions

* `positional` — the last digits of a number.
* `ProductId.octets` — the sixteen octets of an id.

## Main results

* `lex_positional` — the digits of the lesser number come first.
* `ProductId.lex_grouped` — cutting into groups keeps the order.
* `ProductId.le_iff_octets`, `ProductId.le_iff_text_le` — the three orders.
-/

namespace ProductCatalog

open Text

/-! ## Lexicographic order -/

section Lexicographic

variable {α : Type} {r : α → α → Prop} {xs ys us vs : List α}

/-- What stands behind lists of one length does not matter once they differ. -/
theorem lex_append (h : List.Lex r xs ys) (hlen : xs.length = ys.length) :
    List.Lex r (xs ++ us) (ys ++ vs) := by
  induction h with
  | nil => cases hlen
  | rel h => exact .rel h
  | cons _ ih => exact .cons (ih (Nat.succ.inj hlen))

/-- Lists of one length differ first among their first `n` members, or after these. -/
theorem lex_take_or_drop (n : Nat) (h : List.Lex r xs ys) (hlen : xs.length = ys.length) :
    List.Lex r (xs.take n) (ys.take n) ∨
      xs.take n = ys.take n ∧ List.Lex r (xs.drop n) (ys.drop n) := by
  induction h generalizing n with
  | nil => cases hlen
  | rel h =>
      cases n with
      | zero => exact .inr ⟨rfl, .rel h⟩
      | succ n => exact .inl (.rel h)
  | cons h ih =>
      cases n with
      | zero => exact .inr ⟨rfl, .cons h⟩
      | succ n =>
          rcases ih n (Nat.succ.inj hlen) with hfirst | ⟨heq, hrest⟩
          · exact .inl (.cons hfirst)
          · exact .inr ⟨congrArg (List.cons _) heq, hrest⟩

end Lexicographic

/-! ## Digits -/

section Positional

variable {α : Type}

/-- The last `width` digits of a number in a base, the most significant first. -/
def positional (base : Nat) (digit : Nat → α) : (width : Nat) → Nat → List α
  | 0, _ => []
  | width + 1, n => positional base digit width (n / base) ++ [digit (n % base)]

theorem length_positional (base : Nat) (digit : Nat → α) (width n : Nat) :
    (positional base digit width n).length = width := by
  induction width generalizing n with
  | zero => rfl
  | succ width ih => rw [positional, List.length_append, ih, List.length_singleton]

/-- The digits of the lesser of two numbers come first. -/
theorem lex_positional {r : α → α → Prop} {base : Nat} {digit : Nat → α}
    (hbase : 0 < base) (hdigit : ∀ d e, d < e → e < base → r (digit d) (digit e))
    {width m n : Nat} (hlt : m < n) (hn : n < base ^ width) :
    List.Lex r (positional base digit width m) (positional base digit width n) := by
  induction width generalizing m n with
  | zero =>
      rw [Nat.pow_zero] at hn
      omega
  | succ width ih =>
      have hlen : (positional base digit width (m / base)).length =
          (positional base digit width (n / base)).length := by
        rw [length_positional, length_positional]
      have hhigh : m / base ≤ n / base := Nat.div_le_div_right (Nat.le_of_lt hlt)
      rcases Nat.lt_or_eq_of_le hhigh with hless | heq
      · have hsmall : n / base < base ^ width := Nat.div_lt_of_lt_mul (by rwa [Nat.pow_succ'] at hn)
        exact lex_append (ih hless hsmall) hlen
      · -- the digits before the last are the same
        have hlow : m % base < n % base := by
          have hm := Nat.div_add_mod m base
          have hn := Nat.div_add_mod n base
          rw [heq] at hm
          omega
        rw [positional, positional, heq]
        exact List.Lex.append_left r (.rel (hdigit _ _ hlow (Nat.mod_lt n hbase))) _

/-- Hexadecimal digits are the digits in base 16. -/
theorem hexPadded_eq (width n : Nat) : hexPadded width n = positional 16 hexChar width n := by
  induction width generalizing n with
  | zero => rfl
  | succ width ih => rw [hexPadded, positional, ih]

theorem hexChar_lt {d e : Nat} (hlt : d < e) (he : e < 16) : hexChar d < hexChar e := by
  have hall : ∀ d e : Fin 16, d < e → hexChar d.val < hexChar e.val := by decide
  exact hall ⟨d, by omega⟩ ⟨e, he⟩ hlt

end Positional

/-! ## Ids -/

namespace ProductId

variable {a b : ProductId}

/-- The sixteen octets of an id, the most significant first. -/
def octets (id : ProductId) : List UInt8 := positional 256 UInt8.ofNat 16 id.value

theorem lex_octets (h : a.value < b.value) : List.Lex (· < ·) a.octets b.octets := by
  refine lex_positional (by decide) (fun d e hlt he => ?_) h b.value_lt
  rw [UInt8.lt_iff_toNat_lt, UInt8.toNat_ofNat', UInt8.toNat_ofNat']
  omega

/-- Cutting into groups keeps the order of digits. -/
theorem lex_grouped (ns : List Nat) {cs ds : List Char} (h : List.Lex (· < ·) cs ds)
    (hlen : cs.length = ds.length) (hns : ns ≠ []) :
    List.Lex (· < ·) (grouped ns cs) (grouped ns ds) := by
  induction ns generalizing cs ds with
  | nil => exact absurd rfl hns
  | cons n ns ih =>
      cases ns with
      | nil => exact h
      | cons m ns =>
          have htake : (cs.take n).length = (ds.take n).length := by
            rw [List.length_take, List.length_take, hlen]
          have hdrop : (cs.drop n).length = (ds.drop n).length := by
            rw [List.length_drop, List.length_drop, hlen]
          rw [grouped_cons, grouped_cons]
          rcases lex_take_or_drop n h hlen with hfirst | ⟨heq, hrest⟩
          · exact lex_append hfirst htake
          · rw [heq]
            exact List.Lex.append_left _ (.cons (ih hrest hdrop (by simp))) _

theorem lex_chars (h : a.value < b.value) : List.Lex (· < ·) a.chars b.chars := by
  refine lex_grouped groups ?_ (by rw [length_hexPadded, length_hexPadded]) (by decide)
  rw [hexPadded_eq, hexPadded_eq]
  exact lex_positional (by decide) (fun _ _ => hexChar_lt) h b.value_lt

/-- An order in which the lesser number comes first is the order of ids. -/
theorem le_iff_not_lex {α : Type} {r : α → α → Prop} {view : ProductId → List α}
    (hr : ∀ {x y}, r x y → ¬ r y x)
    (hview : ∀ {a b : ProductId}, a.value < b.value → List.Lex r (view a) (view b)) :
    a.le b = true ↔ ¬ List.Lex r (view b) (view a) := by
  rw [le_iff]
  constructor
  · intro hle
    rcases Nat.lt_or_eq_of_le hle with hlt | heq
    · exact List.lex_asymm hr (hview hlt)
    · have hab : a = b := le_antisymm (le_iff.2 hle) (le_iff.2 (Nat.le_of_eq heq.symm))
      subst hab
      exact fun hself => List.lex_asymm hr hself hself
  · intro hnot
    exact Nat.le_of_not_lt fun hlt => hnot (hview hlt)

/-- Ids are ordered as their octets. -/
theorem le_iff_octets : a.le b = true ↔ ¬ List.Lex (· < ·) b.octets a.octets :=
  le_iff_not_lex UInt8.lt_asymm lex_octets

/-- Ids are ordered as their canonical texts. -/
theorem le_iff_text_le : a.le b = true ↔ a.text ≤ b.text := by
  have hchars : a.le b = true ↔ ¬ List.Lex (· < ·) b.chars a.chars :=
    le_iff_not_lex Char.lt_asymm lex_chars
  rw [hchars, text, text]
  show _ ↔ ¬ List.Lex (· < ·) (String.ofList b.chars).toList (String.ofList a.chars).toList
  rw [String.toList_ofList, String.toList_ofList]

end ProductId

end ProductCatalog
