/-!
# Decimal digits

Numbers are written in decimal without padding and read back by one
reader for all the texts that hold plain digits: query values, ports,
setting values, retry counts. Only the ASCII digits are digits.

## Main results

* `ofNat_ne_nil` — a number has at least one digit.
* `ofNat_isDigit` — all that is written is digits.
* `value_ofNat` — the digits written for `n` have the value `n`.
* `head?_ofNat` — only zero is written with a zero in front.
* `lt_pow_length_ofNat`, `pow_length_ofNat_le` — a number between the powers of
  ten that its length tells.
-/

namespace ProductCatalog

/-- A power is the one the type of its base defines, also beside a library that has others. -/
@[default_instance high]
instance (priority := high) instPow {α : Type} [NatPow α] : Pow α Nat := instPowNat

end ProductCatalog

namespace ProductCatalog.Text.Digits

/-- An ASCII decimal digit. -/
def isDigit (c : Char) : Bool := '0' ≤ c && c ≤ '9'

/-- The value of an ASCII digit; other characters have the value they happen to have. -/
def digitValue (c : Char) : Nat := c.toNat - 48

/-- The character of a one-digit number. -/
def digitChar (d : Nat) : Char := Char.ofNat (48 + d)

/-- The number that a digit string spells, read from the left on top of `high`. -/
def valueFrom (high : Nat) (cs : List Char) : Nat :=
  cs.foldl (fun n c => 10 * n + digitValue c) high

/-- The number that a digit string spells; the empty string spells zero. -/
def value (cs : List Char) : Nat := valueFrom 0 cs

/-- Puts the digits of `n` in front of `tail`. -/
def prepend (n : Nat) (tail : List Char) : List Char :=
  if n < 10 then digitChar n :: tail
  else prepend (n / 10) (digitChar (n % 10) :: tail)
termination_by n

/-- The decimal digits of a number, without leading zeros. -/
def ofNat (n : Nat) : List Char := prepend n []

/-- The decimal digits of an integer after its sign, if it is negative. -/
def ofInt (n : Int) : List Char :=
  if n < 0 then '-' :: ofNat n.natAbs else ofNat n.natAbs

/-- The digits of `n`, padded with zeros on the left to at least `width`. -/
def padded (width n : Nat) : List Char :=
  let ds := ofNat n
  List.replicate (width - ds.length) '0' ++ ds

/-- Reads a non-empty digit string. -/
def nat? (cs : List Char) : Option Nat :=
  if cs.isEmpty || !cs.all isDigit then none else some (value cs)

/-- Reads a digit string after an optional sign. -/
def int? : List Char → Option Int
  | '+' :: cs => (nat? cs).map Int.ofNat
  | '-' :: cs => (nat? cs).map fun n => - Int.ofNat n
  | cs => (nat? cs).map Int.ofNat

/-- Reads a digit string, after an optional `+`, as a number below `2 ^ bits`. -/
def unsigned? (bits : Nat) (cs : List Char) : Option Nat :=
  let digits := match cs with
    | '+' :: ds => ds
    | ds => ds
  (nat? digits).filter (· < 2 ^ bits)

/-- Reads a signed 64-bit number. -/
def int64? (cs : List Char) : Option Int :=
  (int? cs).filter fun n => -(2 ^ 63 : Int) ≤ n && n < (2 ^ 63 : Int)

/-! ## What is written reads back -/

theorem digitValue_digitChar {d : Nat} (h : d < 10) : digitValue (digitChar d) = d := by
  have : ∀ d : Fin 10, digitValue (digitChar d.val) = d.val := by decide
  exact this ⟨d, h⟩

theorem isDigit_digitChar {d : Nat} (h : d < 10) : isDigit (digitChar d) = true := by
  have : ∀ d : Fin 10, isDigit (digitChar d.val) = true := by decide
  exact this ⟨d, h⟩

theorem prepend_ne_nil (n : Nat) (tail : List Char) : prepend n tail ≠ [] := by
  fun_induction prepend n tail with
  | case1 => simp
  | case2 _ _ _ ih => exact ih

theorem ofNat_ne_nil (n : Nat) : ofNat n ≠ [] := prepend_ne_nil n []

theorem prepend_isDigit (n : Nat) (tail : List Char) (h : tail.all isDigit = true) :
    (prepend n tail).all isDigit = true := by
  fun_induction prepend n tail with
  | case1 n tail hn => simp [isDigit_digitChar hn, h]
  | case2 n tail hn ih =>
    exact ih (by simp [isDigit_digitChar (Nat.mod_lt n (by decide)), h])

theorem ofNat_isDigit (n : Nat) : (ofNat n).all isDigit = true := prepend_isDigit n [] rfl

theorem valueFrom_prepend (n : Nat) (tail : List Char) :
    valueFrom 0 (prepend n tail) = valueFrom n tail := by
  fun_induction prepend n tail with
  | case1 n tail hn => simp [valueFrom, digitValue_digitChar hn]
  | case2 n tail hn ih =>
    have hd : digitValue (digitChar (n % 10)) = n % 10 :=
      digitValue_digitChar (Nat.mod_lt n (by decide))
    rw [ih]
    simp only [valueFrom, List.foldl_cons, hd]
    congr 1
    omega

theorem value_ofNat (n : Nat) : value (ofNat n) = n := by
  rw [value, ofNat, valueFrom_prepend]
  simp [valueFrom]

/-- Reading the digits written for a number gives the number back. -/
theorem nat?_ofNat (n : Nat) : nat? (ofNat n) = some n := by
  simp [nat?, ofNat_ne_nil, ofNat_isDigit, value_ofNat]

/-- Different numbers have different digits. -/
theorem ofNat_inj {m n : Nat} (h : ofNat m = ofNat n) : m = n := by
  have := congrArg value h
  simpa [value_ofNat] using this

/-! ## Length and first digit -/

theorem head?_prepend {n : Nat} (tail : List Char) (h : n ≠ 0) :
    (prepend n tail).head? ≠ some '0' := by
  have hchar : ∀ d : Fin 10, d.val ≠ 0 → digitChar d.val ≠ '0' := by decide
  fun_induction prepend n tail with
  | case1 n tail hn => exact fun heq => hchar ⟨n, hn⟩ h (Option.some.inj heq)
  | case2 n tail hn ih =>
    apply ih
    omega

/-- Only zero is written with a zero in front. -/
theorem head?_ofNat {n : Nat} (h : n ≠ 0) : (ofNat n).head? ≠ some '0' := head?_prepend [] h

theorem pow_length_prepend (n : Nat) (tail : List Char) :
    (n + 1) * 10 ^ tail.length ≤ 10 ^ (prepend n tail).length := by
  fun_induction prepend n tail with
  | case1 n tail hn =>
    rw [List.length_cons, Nat.pow_succ, Nat.mul_comm]
    apply Nat.mul_le_mul_left
    omega
  | case2 n tail hn ih =>
    refine Nat.le_trans ?_ ih
    rw [List.length_cons, Nat.pow_succ, Nat.mul_comm (10 ^ tail.length), ← Nat.mul_assoc]
    apply Nat.mul_le_mul_right
    omega

/-- A number is below the power of ten with as many zeros as it has digits. -/
theorem lt_pow_length_ofNat (n : Nat) : n < 10 ^ (ofNat n).length := by
  have hle := pow_length_prepend n []
  rw [List.length_nil, Nat.pow_zero, Nat.mul_one] at hle
  exact hle

theorem length_prepend_le {n : Nat} (tail : List Char) (h : n ≠ 0) :
    10 ^ (prepend n tail).length ≤ n * 10 ^ (tail.length + 1) := by
  fun_induction prepend n tail with
  | case1 n tail hn =>
    rw [List.length_cons]
    apply Nat.le_mul_of_pos_left
    omega
  | case2 n tail hn ih =>
    refine Nat.le_trans (ih (by omega)) ?_
    rw [List.length_cons, Nat.pow_succ 10 (tail.length + 1), Nat.mul_comm _ 10, ← Nat.mul_assoc]
    apply Nat.mul_le_mul_right
    omega

/-- A positive number is not below the power of ten with one zero less than it has digits. -/
theorem pow_length_ofNat_le {n : Nat} (h : n ≠ 0) : 10 ^ (ofNat n).length ≤ n * 10 :=
  length_prepend_le [] h

end ProductCatalog.Text.Digits
