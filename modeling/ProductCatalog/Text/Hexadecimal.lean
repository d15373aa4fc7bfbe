import ProductCatalog.Text.Digits

/-!
# Hexadecimal digits

Ids, escapes and encoded bytes are spelled in hexadecimal digits. They are
written in lower case and read in either.

## Main results

* `hexValue?_hexChar` — a digit that is written reads back.
* `hexFrom?_hexPadded` — so does a number, up to its last digits.
* `hexFrom?_toLower` — case does not matter.
* `anyCase_of_hexFrom?` — what is read are the digits of its number.
-/

namespace ProductCatalog.Text

/-- A lower-case hexadecimal digit. -/
def hexChar (d : Nat) : Char := if d < 10 then Char.ofNat (48 + d) else Char.ofNat (87 + d)

/-- Lower-case hexadecimal digits of a number without leading zeros, in front of `tail`. -/
def hexDigits (n : Nat) (tail : List Char) : List Char :=
  if n < 16 then hexChar n :: tail else hexDigits (n / 16) (hexChar (n % 16) :: tail)
termination_by n

/-- The last `width` hexadecimal digits of a number, the most significant first. -/
def hexPadded : (width : Nat) → Nat → List Char
  | 0, _ => []
  | width + 1, n => hexPadded width (n / 16) ++ [hexChar (n % 16)]

/-- The value of a hexadecimal digit in either case. -/
def hexValue? (c : Char) : Option Nat :=
  if '0' ≤ c && c ≤ '9' then some (c.toNat - 48)
  else if 'a' ≤ c && c ≤ 'f' then some (c.toNat - 87)
  else if 'A' ≤ c && c ≤ 'F' then some (c.toNat - 55)
  else none

/-- Whether a character is a hexadecimal digit. -/
def isHexDigit (c : Char) : Bool := (hexValue? c).isSome

/-- The number that a string of hexadecimal digits spells on top of `high`. -/
def hexFrom? (high : Nat) : List Char → Option Nat
  | [] => some high
  | c :: rest =>
    match hexValue? c with
    | some v => hexFrom? (high * 16 + v) rest
    | none => none

/-- The hexadecimal digits of bytes, two for each. -/
def hexText (bytes : List UInt8) : String :=
  String.ofList (bytes.flatMap fun b => hexPadded 2 b.toNat)

/-- The bytes that hexadecimal digits spell, two for each. -/
def bytesOfHex? : List Char → Option (List UInt8)
  | [] => some []
  | [_] => none
  | a :: b :: rest => do
    let n ← hexFrom? 0 [a, b]
    return UInt8.ofNat n :: (← bytesOfHex? rest)

/-! ## What is written reads back -/

theorem hexValue?_hexChar {d : Nat} (h : d < 16) : hexValue? (hexChar d) = some d := by
  have : ∀ d : Fin 16, hexValue? (hexChar d.val) = some d.val := by decide
  exact this ⟨d, h⟩

theorem hexFrom?_append (high : Nat) (xs ys : List Char) :
    hexFrom? high (xs ++ ys) = (hexFrom? high xs).bind fun n => hexFrom? n ys := by
  induction xs generalizing high with
  | nil => rfl
  | cons c rest ih =>
    simp only [List.cons_append, hexFrom?]
    cases hexValue? c with
    | none => rfl
    | some v => exact ih (high * 16 + v)

/-- The digits of a number spell its last part on top of what stands before them. -/
theorem hexFrom?_hexPadded (high width n : Nat) :
    hexFrom? high (hexPadded width n) = some (high * 16 ^ width + n % 16 ^ width) := by
  induction width generalizing n with
  | zero => simp [hexPadded, hexFrom?, Nat.mod_one]
  | succ width ih =>
    rw [hexPadded, hexFrom?_append, ih, Option.bind_some, hexFrom?,
      hexValue?_hexChar (Nat.mod_lt n (by decide))]
    simp only [hexFrom?, Option.some.injEq]
    rw [Nat.pow_succ, Nat.mul_comm (16 ^ width) 16, Nat.mod_mul, Nat.add_mul,
      Nat.mul_assoc, Nat.mul_comm (16 ^ width) 16, Nat.mul_comm (n / 16 % 16 ^ width) 16]
    omega

/-! ## Digits in either case -/

/-- Outside of ASCII there is no lower case. -/
theorem toLower_of_le {c : Char} (h : 0x80 ≤ c.toNat) : c.toLower = c := by
  refine dif_neg ?_
  rintro ⟨-, hc⟩
  have hle : c.toNat ≤ 0x5A := hc
  omega

/-- Case does not matter to the value of a digit. -/
theorem hexValue?_toLower (c : Char) : hexValue? c.toLower = hexValue? c := by
  have hascii : ∀ n : Fin 0x80,
      hexValue? (Char.ofNat n.val).toLower = hexValue? (Char.ofNat n.val) := by decide
  by_cases h : c.toNat < 0x80
  · simpa only [Char.ofNat_toNat] using hascii ⟨c.toNat, h⟩
  · rw [toLower_of_le (by omega)]

theorem hexFrom?_toLower (high : Nat) (cs : List Char) :
    hexFrom? high (cs.map Char.toLower) = hexFrom? high cs := by
  induction cs generalizing high with
  | nil => rfl
  | cons c cs ih =>
    rw [List.map_cons, hexFrom?, hexFrom?, hexValue?_toLower]
    cases hexValue? c with
    | none => rfl
    | some v => exact ih (high * 16 + v)

/-- The digits are ASCII characters. -/
theorem toNat_lt_of_hexValue? {c : Char} {v : Nat} (h : hexValue? c = some v) :
    c.toNat < 0x7F := by
  have hle : ∀ a b : Char, a ≤ b ↔ a.toNat ≤ b.toNat := fun _ _ => Iff.rfl
  have hends : ('9').toNat = 57 ∧ ('f').toNat = 102 ∧ ('F').toNat = 70 := by decide
  simp only [hexValue?, Bool.and_eq_true, decide_eq_true_eq, hle] at h
  split at h
  · omega
  split at h
  · omega
  split at h
  · omega
  · cases h

/-- What is written in lower case, with letters of either case in its place. -/
def AnyCase (written cs : List Char) : Prop := cs.map Char.toLower = written

instance (written cs : List Char) : Decidable (AnyCase written cs) :=
  inferInstanceAs (Decidable (cs.map Char.toLower = written))

theorem AnyCase.length_eq {written cs : List Char} (h : AnyCase written cs) :
    cs.length = written.length := by
  rw [← h, List.length_map]

/-- Digits spell their number in any case. -/
theorem AnyCase.hexFrom?_eq {written cs : List Char} (h : AnyCase written cs) (high : Nat) :
    hexFrom? high cs = hexFrom? high written := by
  rw [← h, hexFrom?_toLower]

/-! ## What is read is spelled -/

/-- A digit has the value of the digit that it is in lower case. -/
theorem toLower_of_hexValue? {c : Char} {v : Nat} (h : hexValue? c = some v) :
    v < 16 ∧ c.toLower = hexChar v := by
  have hascii : ∀ n : Fin 0x80, ∀ v ∈ hexValue? (Char.ofNat n.val),
      v < 16 ∧ (Char.ofNat n.val).toLower = hexChar v := by decide
  have hc := toNat_lt_of_hexValue? h
  have hdigit := hascii ⟨c.toNat, by omega⟩ v
  rw [Char.ofNat_toNat] at hdigit
  exact hdigit h

/-- The first of the digits of a number. -/
theorem hexPadded_succ (width n : Nat) :
    hexPadded (width + 1) n = hexChar (n / 16 ^ width % 16) :: hexPadded width n := by
  induction width generalizing n with
  | zero => rw [Nat.pow_zero, Nat.div_one]; rfl
  | succ width ih =>
    have hdiv : n / 16 ^ (width + 1) = n / 16 / 16 ^ width := by
      rw [Nat.pow_succ, Nat.mul_comm, Nat.div_div_eq_div_mul]
    rw [hexPadded, ih, hdiv]
    rfl

/-- Digits that are read are those of the number that is read, in some case. -/
theorem anyCase_of_hexFrom? {high n : Nat} {cs : List Char} (h : hexFrom? high cs = some n) :
    AnyCase (hexPadded cs.length n) cs ∧ n / 16 ^ cs.length = high := by
  induction cs generalizing high with
  | nil =>
    obtain rfl := Option.some.inj h
    exact ⟨rfl, by simp⟩
  | cons c cs ih =>
    rw [hexFrom?] at h
    cases hv : hexValue? c with
    | none => rw [hv] at h; cases h
    | some v =>
      rw [hv] at h
      obtain ⟨hlt, hlower⟩ := toLower_of_hexValue? hv
      obtain ⟨hcs, hn⟩ := ih h
      have hmod : (high * 16 + v) % 16 = v := by omega
      refine ⟨?_, ?_⟩
      · rw [List.length_cons, hexPadded_succ, hn, hmod, AnyCase, List.map_cons, hlower, hcs]
      · rw [List.length_cons, Nat.pow_succ, ← Nat.div_div_eq_div_mul, hn]
        omega

end ProductCatalog.Text
