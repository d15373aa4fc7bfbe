/-!
# Text as bytes

Message bodies and request bodies are byte strings; text inside them is
UTF-8. This module fixes the two directions. `encode` writes a text out
scalar by scalar, and `decode` reads it back, refusing every ill-formed
sequence: overlong forms, surrogates, values above `U+10FFFF`, stray
continuation bytes and sequences cut short by the end of the input.

A refusal says how far the input was well formed and how many bytes the
ill-formed part has, which is what the one message that quotes it needs.
A part that only the end of the input cut short has no length of its own.

## Main definitions

* `Bytes` — a byte string.
* `encode`, `decode` — the two directions.
* `Utf8Fault` — where and why reading stopped.

## Main results

* `decodeFrom_utf8EncodeChar` — a scalar that is written is read back, whatever follows.
* `decode_encode` — so is a text.
* `eq_encode_of_decode` — and nothing else is read as that text.
* `utf8EncodeChar_shape` — a character begins where no sequence goes on.
-/

namespace ProductCatalog.Text

/-- A byte string, as queues and sockets carry it. -/
abbrev Bytes := List UInt8

/-- The first place where a byte string stops being UTF-8. -/
structure Utf8Fault where
  /-- Number of leading bytes that are well formed. -/
  validUpTo : Nat
  /-- Length of the ill-formed part; `none` when the input ended inside it. -/
  badBytes : Option Nat
deriving Repr, DecidableEq

/-- The sentence that reports an ill-formed byte string. -/
def Utf8Fault.message (fault : Utf8Fault) : String :=
  match fault.badBytes with
  | some n => s!"invalid utf-8 sequence of {n} bytes from index {fault.validUpTo}"
  | none => s!"incomplete utf-8 byte sequence from index {fault.validUpTo}"

/-- The UTF-8 bytes of a text. -/
def encode (text : String) : Bytes :=
  text.toList.flatMap String.utf8EncodeChar

/-- A byte that continues a sequence. -/
def isContinuation (b : UInt8) : Bool := 0x80 ≤ b && b ≤ 0xBF

/-- The six low bits that a continuation byte carries. -/
private def low (b : UInt8) : Nat := b.toNat % 64

/-- The range that the second byte of a three-byte sequence must be in. -/
private def secondOfThree (b0 b1 : UInt8) : Bool :=
  if b0 = 0xE0 then 0xA0 ≤ b1 && b1 ≤ 0xBF
  else if b0 = 0xED then 0x80 ≤ b1 && b1 ≤ 0x9F
  else isContinuation b1

/-- The range that the second byte of a four-byte sequence must be in. -/
private def secondOfFour (b0 b1 : UInt8) : Bool :=
  if b0 = 0xF0 then 0x90 ≤ b1 && b1 ≤ 0xBF
  else if b0 = 0xF4 then 0x80 ≤ b1 && b1 ≤ 0x8F
  else isContinuation b1

/--
Reads the rest of a byte string, having read `pos` bytes into the
scalars `done` (last one first).
-/
def decodeFrom (pos : Nat) (done : List Char) : Bytes → Except Utf8Fault (List Char)
  | [] => .ok done.reverse
  | b0 :: r0 =>
    if b0 < 0x80 then decodeFrom (pos + 1) (Char.ofNat b0.toNat :: done) r0
    else if 0xC2 ≤ b0 && b0 ≤ 0xDF then
      match r0 with
      | [] => .error ⟨pos, none⟩
      | b1 :: r1 =>
        if isContinuation b1 then
          decodeFrom (pos + 2) (Char.ofNat ((b0.toNat % 32) * 64 + low b1) :: done) r1
        else .error ⟨pos, some 1⟩
    else if 0xE0 ≤ b0 && b0 ≤ 0xEF then
      match r0 with
      | [] => .error ⟨pos, none⟩
      | b1 :: r1 =>
        if secondOfThree b0 b1 then
          match r1 with
          | [] => .error ⟨pos, none⟩
          | b2 :: r2 =>
            if isContinuation b2 then
              decodeFrom (pos + 3)
                (Char.ofNat ((b0.toNat % 16) * 4096 + low b1 * 64 + low b2) :: done) r2
            else .error ⟨pos, some 2⟩
        else .error ⟨pos, some 1⟩
    else if 0xF0 ≤ b0 && b0 ≤ 0xF4 then
      match r0 with
      | [] => .error ⟨pos, none⟩
      | b1 :: r1 =>
        if secondOfFour b0 b1 then
          match r1 with
          | [] => .error ⟨pos, none⟩
          | b2 :: r2 =>
            if isContinuation b2 then
              match r2 with
              | [] => .error ⟨pos, none⟩
              | b3 :: r3 =>
                if isContinuation b3 then
                  decodeFrom (pos + 4)
                    (Char.ofNat ((b0.toNat % 8) * 262144 + low b1 * 4096 + low b2 * 64 + low b3)
                      :: done) r3
                else .error ⟨pos, some 3⟩
            else .error ⟨pos, some 2⟩
        else .error ⟨pos, some 1⟩
    else .error ⟨pos, some 1⟩

/-- The text that a byte string spells, if it is UTF-8. -/
def decode (bytes : Bytes) : Except Utf8Fault String :=
  (decodeFrom 0 [] bytes).map String.ofList

/-- The text that a byte string spells, `none` when it is not UTF-8. -/
def decode? (bytes : Bytes) : Option String :=
  (decode bytes).toOption

/-! ## What is written reads back -/

/-- The scalars are the numbers below `0x110000` that are no surrogates. -/
theorem toNat_scalar (c : Char) :
    c.toNat < 0xD800 ∨ (0xDFFF < c.toNat ∧ c.toNat < 0x110000) :=
  c.valid

private theorem toNat_mark {n : Nat} (h : n < 256) : (UInt8.ofNat n).toNat = n := by
  rw [UInt8.toNat_ofNat', Nat.mod_eq_of_lt h]

/-- A byte made of a mark and six bits continues a sequence. -/
private theorem isContinuation_mark (n : Nat) :
    isContinuation (UInt8.ofNat (n % 64 + 128)) = true := by
  simp only [isContinuation, Bool.and_eq_true, decide_eq_true_eq, UInt8.le_iff_toNat_le,
    toNat_mark (show n % 64 + 128 < 256 by omega), UInt8.toNat_ofNat]
  omega

/-- The six bits under the mark. -/
private theorem low_mark (n : Nat) : low (UInt8.ofNat (n % 64 + 128)) = n % 64 := by
  rw [low, toNat_mark (by omega)]
  omega

/-- The second byte of three keeps out overlong forms and surrogates, and no other scalar. -/
private theorem secondOfThree_mark {n : Nat} (hlow : 0x800 ≤ n) (hhigh : n < 0x10000)
    (hscalar : n < 0xD800 ∨ 0xDFFF < n) :
    secondOfThree (UInt8.ofNat (n / 4096 % 16 + 224)) (UInt8.ofNat (n / 64 % 64 + 128)) = true := by
  have hlead := toNat_mark (show n / 4096 % 16 + 224 < 256 by omega)
  have hsecond := toNat_mark (show n / 64 % 64 + 128 < 256 by omega)
  simp only [secondOfThree, isContinuation_mark, UInt8.le_iff_toNat_le, ← UInt8.toNat_inj, hlead,
    hsecond, UInt8.toNat_ofNat]
  split
  · simp only [Bool.and_eq_true, decide_eq_true_eq]; omega
  · split
    · simp only [Bool.and_eq_true, decide_eq_true_eq]; omega
    · rfl

/-- The second byte of four keeps out overlong forms and what is above the scalars. -/
private theorem secondOfFour_mark {n : Nat} (hlow : 0x10000 ≤ n) (hhigh : n < 0x110000) :
    secondOfFour (UInt8.ofNat (n / 262144 % 8 + 240)) (UInt8.ofNat (n / 4096 % 64 + 128)) =
      true := by
  have hlead := toNat_mark (show n / 262144 % 8 + 240 < 256 by omega)
  have hsecond := toNat_mark (show n / 4096 % 64 + 128 < 256 by omega)
  simp only [secondOfFour, isContinuation_mark, UInt8.le_iff_toNat_le, ← UInt8.toNat_inj, hlead,
    hsecond, UInt8.toNat_ofNat]
  split
  · simp only [Bool.and_eq_true, decide_eq_true_eq]; omega
  · split
    · simp only [Bool.and_eq_true, decide_eq_true_eq]; omega
    · rfl

/-- A byte of a written scalar is the scalar itself, or else no ASCII character. -/
theorem mem_utf8EncodeChar {c : Char} {b : UInt8} (h : b ∈ String.utf8EncodeChar c) :
    b.toNat = c.toNat ∨ 0x80 ≤ b := by
  have hval : c.val.toNat = c.toNat := rfl
  have hmark : ∀ n, 0x80 ≤ n → n < 256 → 0x80 ≤ UInt8.ofNat n := by
    intro n hlow hhigh
    rw [UInt8.le_iff_toNat_le, toNat_mark hhigh]
    exact hlow
  rw [String.utf8EncodeChar, hval] at h
  split at h
  · rw [List.mem_singleton.1 h]
    exact .inl (toNat_mark (by omega))
  refine .inr ?_
  split at h
  · simp only [List.mem_cons, List.not_mem_nil, or_false] at h
    rcases h with rfl | rfl <;> exact hmark _ (by omega) (by omega)
  split at h
  · simp only [List.mem_cons, List.not_mem_nil, or_false] at h
    rcases h with rfl | rfl | rfl <;> exact hmark _ (by omega) (by omega)
  · simp only [List.mem_cons, List.not_mem_nil, or_false] at h
    rcases h with rfl | rfl | rfl | rfl <;> exact hmark _ (by omega) (by omega)

/-- A scalar that is written is read back, whatever follows. -/
theorem decodeFrom_utf8EncodeChar (pos : Nat) (done : List Char) (c : Char) (rest : Bytes) :
    ∃ next, decodeFrom pos done (String.utf8EncodeChar c ++ rest) =
      decodeFrom next (c :: done) rest := by
  have hval : c.val.toNat = c.toNat := rfl
  have hscalar := toNat_scalar c
  have hchar : ∀ n, n = c.toNat → Char.ofNat n = c := by
    rintro n rfl
    exact Char.ofNat_toNat c
  rw [String.utf8EncodeChar, hval]
  generalize c.toNat = n at hscalar hchar
  -- One case for each length of a sequence; the first byte tells them apart.
  split
  · refine ⟨pos + 1, ?_⟩
    have hlead := toNat_mark (show n < 256 by omega)
    rw [List.cons_append, List.nil_append, decodeFrom.eq_def pos]
    simp only [UInt8.lt_iff_toNat_lt, hlead, UInt8.toNat_ofNat]
    rw [if_pos (by omega), hchar n rfl]
  split
  · refine ⟨pos + 2, ?_⟩
    have hlead := toNat_mark (show n / 64 % 32 + 192 < 256 by omega)
    rw [List.cons_append, List.cons_append, List.nil_append, decodeFrom.eq_def pos]
    simp only [UInt8.lt_iff_toNat_lt, UInt8.le_iff_toNat_le, Bool.and_eq_true, decide_eq_true_eq,
      hlead, UInt8.toNat_ofNat, isContinuation_mark, low_mark, if_true]
    rw [if_neg (by omega), if_pos (by omega), hchar _ (by omega)]
  split
  · refine ⟨pos + 3, ?_⟩
    have hlead := toNat_mark (show n / 4096 % 16 + 224 < 256 by omega)
    have hsecond := secondOfThree_mark (n := n) (by omega) (by omega) (by omega)
    rw [List.cons_append, List.cons_append, List.cons_append, List.nil_append,
      decodeFrom.eq_def pos]
    simp only [UInt8.lt_iff_toNat_lt, UInt8.le_iff_toNat_le, Bool.and_eq_true, decide_eq_true_eq,
      hlead, UInt8.toNat_ofNat, isContinuation_mark, low_mark, hsecond, if_true]
    rw [if_neg (by omega), if_neg (by omega), if_pos (by omega), hchar _ (by omega)]
  · refine ⟨pos + 4, ?_⟩
    have hlead := toNat_mark (show n / 262144 % 8 + 240 < 256 by omega)
    have hsecond := secondOfFour_mark (n := n) (by omega) (by omega)
    rw [List.cons_append, List.cons_append, List.cons_append, List.cons_append, List.nil_append,
      decodeFrom.eq_def pos]
    simp only [UInt8.lt_iff_toNat_lt, UInt8.le_iff_toNat_le, Bool.and_eq_true, decide_eq_true_eq,
      hlead, UInt8.toNat_ofNat, isContinuation_mark, low_mark, hsecond, if_true]
    rw [if_neg (by omega), if_neg (by omega), if_neg (by omega), if_pos (by omega),
      hchar _ (by omega)]

theorem decodeFrom_encode (pos : Nat) (done cs : List Char) :
    decodeFrom pos done (cs.flatMap String.utf8EncodeChar) = .ok (done.reverse ++ cs) := by
  induction cs generalizing pos done with
  | nil => simp [decodeFrom]
  | cons c cs ih =>
    obtain ⟨next, hnext⟩ :=
      decodeFrom_utf8EncodeChar pos done c (cs.flatMap String.utf8EncodeChar)
    rw [List.flatMap_cons, hnext, ih, List.reverse_cons, List.append_assoc]
    rfl

/-- A text that is written is read back. -/
theorem decode_encode (text : String) : decode (encode text) = .ok text := by
  rw [decode, encode, decodeFrom_encode]
  simp [Except.map]

/-! ## What is read is written -/

/-- The character of a scalar has the scalar's number. -/
theorem toNat_charOfNat {n : Nat} (h : n < 0xD800 ∨ (0xDFFF < n ∧ n < 0x110000)) :
    (Char.ofNat n).toNat = n := by
  rw [Char.ofNat, dif_pos h]
  rfl

private theorem isContinuation_iff {b : UInt8} :
    isContinuation b = true ↔ 128 ≤ b.toNat ∧ b.toNat ≤ 191 := by
  simp only [isContinuation, Bool.and_eq_true, decide_eq_true_eq, UInt8.le_iff_toNat_le,
    UInt8.toNat_ofNat]

/-- The second byte of three continues the sequence, and the scalar is neither too small nor a
surrogate. -/
private theorem secondOfThree_bounds {b0 b1 : UInt8} (h : secondOfThree b0 b1 = true) :
    (128 ≤ b1.toNat ∧ b1.toNat ≤ 191) ∧ (b0.toNat = 0xE0 → 0xA0 ≤ b1.toNat) ∧
      (b0.toNat = 0xED → b1.toNat ≤ 0x9F) := by
  simp only [secondOfThree, ← UInt8.toNat_inj, UInt8.toNat_ofNat] at h
  split at h
  · simp only [Bool.and_eq_true, decide_eq_true_eq, UInt8.le_iff_toNat_le, UInt8.toNat_ofNat] at h
    omega
  split at h
  · simp only [Bool.and_eq_true, decide_eq_true_eq, UInt8.le_iff_toNat_le, UInt8.toNat_ofNat] at h
    omega
  · have := isContinuation_iff.1 h
    omega

/-- The second byte of four continues the sequence, and the scalar is neither too small nor too
great. -/
private theorem secondOfFour_bounds {b0 b1 : UInt8} (h : secondOfFour b0 b1 = true) :
    (128 ≤ b1.toNat ∧ b1.toNat ≤ 191) ∧ (b0.toNat = 0xF0 → 0x90 ≤ b1.toNat) ∧
      (b0.toNat = 0xF4 → b1.toNat ≤ 0x8F) := by
  simp only [secondOfFour, ← UInt8.toNat_inj, UInt8.toNat_ofNat] at h
  split at h
  · simp only [Bool.and_eq_true, decide_eq_true_eq, UInt8.le_iff_toNat_le, UInt8.toNat_ofNat] at h
    omega
  split at h
  · simp only [Bool.and_eq_true, decide_eq_true_eq, UInt8.le_iff_toNat_le, UInt8.toNat_ofNat] at h
    omega
  · have := isContinuation_iff.1 h
    omega

private theorem ofNat_eq {b : UInt8} {n : Nat} (h : b.toNat = n) : UInt8.ofNat n = b := by
  rw [← h, UInt8.ofNat_toNat]

private theorem encode_one {b0 : UInt8} (h0 : b0 < 0x80) :
    String.utf8EncodeChar (Char.ofNat b0.toNat) = [b0] := by
  simp only [UInt8.lt_iff_toNat_lt, UInt8.toNat_ofNat] at h0
  have hval : (Char.ofNat b0.toNat).val.toNat = b0.toNat := toNat_charOfNat (by omega)
  rw [String.utf8EncodeChar, hval, if_pos (by omega), UInt8.ofNat_toNat]

private theorem encode_two {b0 b1 : UInt8} (h0 : 0xC2 ≤ b0 ∧ b0 ≤ 0xDF)
    (h1 : isContinuation b1 = true) :
    String.utf8EncodeChar (Char.ofNat (b0.toNat % 32 * 64 + low b1)) = [b0, b1] := by
  simp only [UInt8.le_iff_toNat_le, UInt8.toNat_ofNat] at h0
  have hb1 := isContinuation_iff.1 h1
  unfold low
  generalize hn : b0.toNat % 32 * 64 + b1.toNat % 64 = n
  have hval : (Char.ofNat n).val.toNat = n := toNat_charOfNat (by omega)
  rw [String.utf8EncodeChar, hval, if_neg (by omega), if_pos (by omega),
    ofNat_eq (b := b0) (by omega), ofNat_eq (b := b1) (by omega)]

private theorem encode_three {b0 b1 b2 : UInt8} (h0 : 0xE0 ≤ b0 ∧ b0 ≤ 0xEF)
    (h1 : secondOfThree b0 b1 = true) (h2 : isContinuation b2 = true) :
    String.utf8EncodeChar (Char.ofNat (b0.toNat % 16 * 4096 + low b1 * 64 + low b2)) =
      [b0, b1, b2] := by
  simp only [UInt8.le_iff_toNat_le, UInt8.toNat_ofNat] at h0
  have hb1 := secondOfThree_bounds h1
  have hb2 := isContinuation_iff.1 h2
  unfold low
  generalize hn : b0.toNat % 16 * 4096 + b1.toNat % 64 * 64 + b2.toNat % 64 = n
  have hval : (Char.ofNat n).val.toNat = n := toNat_charOfNat (by omega)
  rw [String.utf8EncodeChar, hval, if_neg (by omega), if_neg (by omega), if_pos (by omega),
    ofNat_eq (b := b0) (by omega), ofNat_eq (b := b1) (by omega), ofNat_eq (b := b2) (by omega)]

private theorem encode_four {b0 b1 b2 b3 : UInt8} (h0 : 0xF0 ≤ b0 ∧ b0 ≤ 0xF4)
    (h1 : secondOfFour b0 b1 = true) (h2 : isContinuation b2 = true)
    (h3 : isContinuation b3 = true) :
    String.utf8EncodeChar
      (Char.ofNat (b0.toNat % 8 * 262144 + low b1 * 4096 + low b2 * 64 + low b3)) =
        [b0, b1, b2, b3] := by
  simp only [UInt8.le_iff_toNat_le, UInt8.toNat_ofNat] at h0
  have hb1 := secondOfFour_bounds h1
  have hb2 := isContinuation_iff.1 h2
  have hb3 := isContinuation_iff.1 h3
  unfold low
  generalize hn : b0.toNat % 8 * 262144 + b1.toNat % 64 * 4096 + b2.toNat % 64 * 64 +
    b3.toNat % 64 = n
  have hval : (Char.ofNat n).val.toNat = n := toNat_charOfNat (by omega)
  rw [String.utf8EncodeChar, hval, if_neg (by omega), if_neg (by omega), if_neg (by omega),
    ofNat_eq (b := b0) (by omega), ofNat_eq (b := b1) (by omega), ofNat_eq (b := b2) (by omega),
    ofNat_eq (b := b3) (by omega)]

/-- What is read as a text is what the text is written as. -/
theorem eq_of_decodeFrom {pos : Nat} {done cs : List Char} {bytes : Bytes}
    (h : decodeFrom pos done bytes = .ok cs) :
    ∃ cs', cs = done.reverse ++ cs' ∧ bytes = cs'.flatMap String.utf8EncodeChar := by
  -- What has been read is put in front of the rest.
  have hcons : ∀ {c : Char} {lead rest : Bytes} {done : List Char},
      String.utf8EncodeChar c = lead →
      (∃ cs', cs = (c :: done).reverse ++ cs' ∧ rest = cs'.flatMap String.utf8EncodeChar) →
      ∃ cs', cs = done.reverse ++ cs' ∧ lead ++ rest = cs'.flatMap String.utf8EncodeChar := by
    rintro c _ _ done rfl ⟨cs', rfl, rfl⟩
    exact ⟨c :: cs', by simp, rfl⟩
  have hrange : ∀ {b lo hi : UInt8}, (decide (lo ≤ b) && decide (b ≤ hi)) = true →
      lo ≤ b ∧ b ≤ hi := by
    intro b lo hi hb
    simpa only [Bool.and_eq_true, decide_eq_true_eq] using hb
  fun_induction decodeFrom pos done bytes with
  | case1 =>
    obtain rfl := Except.ok.inj h
    exact ⟨[], (List.append_nil _).symm, rfl⟩
  | case2 _ _ _ _ h0 ih => exact hcons (encode_one h0) (ih h)
  | case4 _ _ _ _ h0 _ _ h1 ih => exact hcons (encode_two (hrange h0) h1) (ih h)
  | case8 _ _ _ _ _ h0 _ h1 _ _ h2 ih => exact hcons (encode_three (hrange h0) h1 h2) (ih h)
  | case14 _ _ _ _ _ _ h0 _ h1 _ h2 _ _ h3 ih =>
    exact hcons (encode_four (hrange h0) h1 h2 h3) (ih h)
  | _ => cases h

/-- What is read as a text is what the text is written as. -/
theorem eq_encode_of_decode {bytes : Bytes} {text : String} (h : decode bytes = .ok text) :
    bytes = encode text := by
  rw [decode] at h
  cases hcs : decodeFrom 0 [] bytes with
  | error fault => rw [hcs] at h; cases h
  | ok cs =>
    rw [hcs] at h
    obtain rfl := Except.ok.inj h
    obtain ⟨cs', rfl, rfl⟩ := eq_of_decodeFrom hcs
    rw [encode, String.toList_ofList]

/-- The first byte of a character continues no sequence, and all others do. -/
theorem utf8EncodeChar_shape (c : Char) :
    ∃ lead tail, String.utf8EncodeChar c = lead :: tail ∧ isContinuation lead = false ∧
      ∀ b ∈ tail, isContinuation b = true := by
  have hval : c.val.toNat = c.toNat := rfl
  have hscalar := toNat_scalar c
  have hlead : ∀ {n : Nat}, n < 256 → (n < 128 ∨ 191 < n) →
      isContinuation (UInt8.ofNat n) = false := by
    intro n hn hout
    rw [Bool.eq_false_iff, Ne, isContinuation_iff, toNat_mark hn]
    omega
  rw [String.utf8EncodeChar, hval]
  generalize c.toNat = n at hscalar
  split
  · exact ⟨_, _, rfl, hlead (by omega) (by omega), by simp⟩
  split
  · exact ⟨_, _, rfl, hlead (by omega) (by omega), by simp [isContinuation_mark, -UInt8.ofNat_add]⟩
  split
  · exact ⟨_, _, rfl, hlead (by omega) (by omega), by simp [isContinuation_mark, -UInt8.ofNat_add]⟩
  · exact ⟨_, _, rfl, hlead (by omega) (by omega), by simp [isContinuation_mark, -UInt8.ofNat_add]⟩

end ProductCatalog.Text
