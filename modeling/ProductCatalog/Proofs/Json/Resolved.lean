import ProductCatalog.Proofs.Json.Spelling

/-!
# What is read as a string is spelled so

A string is read in two passes: its escapes are resolved byte by byte, and
the bytes that result are decoded.  The two passes agree on where a
character begins, because the bytes of an escape begin with no continuation
byte.  So a string that is read as a text falls into the spellings of the
text's characters, one after the other.

## Main definitions

* `Resolves` — how the bytes of a string become the bytes of its text.

## Main results

* `eq_of_readEscape` — an escape that is read spells its character.
* `Resolves.spells` — what resolves to the bytes of characters spells them.
* `eq_of_readString` — a string that is read spells its text.
-/

namespace ProductCatalog.Json

open Text

section Except

variable {ε α β : Type}

/-- A result of two steps is one of the second, on a result of the first. -/
theorem exists_of_bind_ok {x : Except ε α} {f : α → Except ε β} {b : β}
    (h : (x >>= f) = .ok b) : ∃ a, x = .ok a ∧ f a = .ok b := by
  cases x with
  | error _ => cases h
  | ok a => exact ⟨a, rfl, h⟩

theorem exists_of_map_ok {x : Except ε α} {f : α → β} {b : β} (h : x.map f = .ok b) :
    ∃ a, x = .ok a ∧ f a = b := by
  cases x with
  | error _ => cases h
  | ok a => exact ⟨a, rfl, Except.ok.inj h⟩

end Except

/-! ## Numeric escapes -/

theorem asciiBytes_toChars (bytes : Bytes) :
    asciiBytes (bytes.map fun b => Char.ofNat b.toNat) = bytes := by
  have hbyte : ∀ b : UInt8, UInt8.ofNat (Char.ofNat b.toNat).toNat = b := by
    intro b
    have hlt : b.toNat < 256 := b.toNat_lt
    rw [toNat_charOfNat (by omega), UInt8.ofNat_toNat]
  rw [asciiBytes, List.map_map]
  exact (List.map_congr_left fun b _ => hbyte b).trans (List.map_id' _)

/-- Four digits that are read spell their number. -/
theorem eq_of_readHex4 {bytes rest : Bytes} {n : Nat} (h : readHex4 bytes = .ok (n, rest)) :
    ∃ digits, bytes = digits ++ rest ∧ Hex4 n digits ∧ n < 0x10000 := by
  unfold readHex4 at h
  split at h
  · next a b c d tail =>
      split at h
      · next w x y z hw hx hy hz =>
          obtain ⟨rfl, rfl⟩ := Prod.mk.inj (Except.ok.inj h)
          have hread : hexFrom? 0 ([a, b, c, d].map fun b => Char.ofNat b.toNat) =
              some (((w * 16 + x) * 16 + y) * 16 + z) := by
            rw [hexByte?] at hw hx hy hz
            simp only [List.map_cons, List.map_nil, hexFrom?, hw, hx, hy, hz, Nat.zero_mul,
              Nat.zero_add]
          obtain ⟨hdigits, hhigh⟩ := anyCase_of_hexFrom? hread
          refine ⟨[a, b, c, d], rfl, ⟨_, hdigits, (asciiBytes_toChars _).symm⟩, ?_⟩
          simp only [List.length_map, List.length_cons, List.length_nil] at hhigh
          omega
      · cases h
  · cases h

theorem eq_of_expectInPair {expected : UInt8} {bytes rest : Bytes} {u : Unit}
    (h : expectInPair expected bytes = .ok (u, rest)) : bytes = expected :: rest := by
  cases bytes with
  | nil => cases h
  | cons b bytes =>
      rw [expectInPair] at h
      split at h
      · next hb =>
          obtain ⟨-, rfl⟩ := Prod.mk.inj (Except.ok.inj h)
          rw [hb]
      · cases h

/-- A numeric escape, or a pair of them, spells the character that it is read as. -/
theorem eq_of_readUnicodeEscape {bytes rest : Bytes} {c : Char}
    (h : readUnicodeEscape bytes = .ok (c, rest)) :
    ∃ esc, bytes = esc ++ rest ∧ SpellsChar c (0x5C :: 0x75 :: esc) := by
  unfold readUnicodeEscape at h
  obtain ⟨⟨n, rest₁⟩, hn, hplane⟩ := exists_of_bind_ok h
  obtain ⟨digits, hbytes, hdigits, hlt⟩ := eq_of_readHex4 hn
  simp only [Bool.and_eq_true, Bool.or_eq_true, decide_eq_true_eq] at hplane
  split at hplane
  · cases hplane
  next hnotLow =>
  split at hplane
  · next hplain =>
      obtain ⟨rfl, rfl⟩ := Prod.mk.inj (Except.ok.inj hplane)
      have hc : (Char.ofNat n).toNat = n := toNat_charOfNat (by omega)
      exact ⟨digits, hbytes, .numeric (by omega) (by rwa [hc])⟩
  next hnotPlain =>
  obtain ⟨⟨_, rest₂⟩, hback, hpair⟩ := exists_of_bind_ok hplane
  obtain ⟨⟨_, rest₃⟩, hmark, hpair⟩ := exists_of_bind_ok hpair
  obtain ⟨⟨m, rest₄⟩, hm, hpair⟩ := exists_of_bind_ok hpair
  obtain ⟨digits', hbytes', hdigits', -⟩ := eq_of_readHex4 hm
  dsimp only at hmark hbytes' hpair
  split at hpair
  · cases hpair
  next hsecond =>
  obtain ⟨rfl, rfl⟩ := Prod.mk.inj (Except.ok.inj hpair)
  generalize hv : 0x10000 + (n - 0xD800) * 1024 + (m - 0xDC00) = v
  have hc : (Char.ofNat v).toNat = v := toNat_charOfNat (by omega)
  have hhigh : 0xD800 + ((Char.ofNat v).toNat - 0x10000) / 0x400 = n := by omega
  have hlow : 0xDC00 + ((Char.ofNat v).toNat - 0x10000) % 0x400 = m := by omega
  refine ⟨digits ++ 0x5C :: 0x75 :: digits', ?_, .pair (by omega) ?_ ?_⟩
  · rw [hbytes, eq_of_expectInPair hback, eq_of_expectInPair hmark, hbytes', List.append_assoc]
    rfl
  · rwa [hhigh]
  · rwa [hlow]

/-- The letter of an escape is one of the list. -/
theorem mem_of_simpleEscape? {b : UInt8} {c : Char} (h : simpleEscape? b = some c) :
    (c, b) ∈ letterEscapes := by
  unfold simpleEscape? at h
  repeat'
    split at h
    · next hb =>
        obtain rfl := Option.some.inj h
        rw [hb]
        decide
  cases h

/-- An escape that is read spells its character. -/
theorem eq_of_readEscape {bytes rest : Bytes} {c : Char} (h : readEscape bytes = .ok (c, rest)) :
    ∃ esc, bytes = esc ++ rest ∧ SpellsChar c (0x5C :: esc) := by
  cases bytes with
  | nil => cases h
  | cons b bytes =>
      rw [readEscape] at h
      split at h
      · next hmark =>
          obtain ⟨esc, rfl, hesc⟩ := eq_of_readUnicodeEscape h
          exact ⟨b :: esc, rfl, by rwa [hmark]⟩
      · split at h
        · next hletter =>
            obtain ⟨rfl, rfl⟩ := Prod.mk.inj (Except.ok.inj h)
            exact ⟨[b], rfl, .letter (mem_of_simpleEscape? hletter)⟩
        · cases h

/-! ## The two passes -/

/-- The first bytes of a string become the second when its escapes are resolved. -/
inductive Resolves : Bytes → Bytes → Prop
  | nil : Resolves [] []
  | raw {b : UInt8} {src res : Bytes} (hb : IsRaw b) (h : Resolves src res) :
      Resolves (b :: src) (b :: res)
  | escape {c : Char} {esc src res : Bytes} (hesc : SpellsChar c (0x5C :: esc))
      (h : Resolves src res) :
      Resolves (0x5C :: (esc ++ src)) (String.utf8EncodeChar c ++ res)

/-- The first pass resolves what stands before the closing quote. -/
theorem eq_of_readStringBody {fuel : Nat} {done bytes body rest : Bytes}
    (h : readStringBody fuel done bytes = .ok (body, rest)) :
    ∃ src res, bytes = src ++ 0x22 :: rest ∧ body = done.reverse ++ res ∧ Resolves src res := by
  induction fuel generalizing done bytes with
  | zero => cases h
  | succ fuel ih =>
      cases bytes with
      | nil => cases h
      | cons b bytes =>
          rw [readStringBody] at h
          split at h
          · next hquote =>
              obtain ⟨rfl, rfl⟩ := Prod.mk.inj (Except.ok.inj h)
              exact ⟨[], [], by rw [hquote]; rfl, (List.append_nil _).symm, .nil⟩
          next hquote =>
          split at h
          · next hback =>
              split at h
              · next c tail hc =>
                  obtain ⟨esc, rfl, hesc⟩ := eq_of_readEscape hc
                  obtain ⟨src, res, rfl, rfl, hres⟩ := ih h
                  refine ⟨0x5C :: (esc ++ src), _, ?_, ?_, .escape hesc hres⟩
                  · rw [hback, List.cons_append, List.append_assoc]
                  · rw [List.reverse_append, List.reverse_reverse, List.append_assoc]
              · cases h
          next hback =>
          split at h
          · cases h
          next hcontrol =>
          obtain ⟨src, res, rfl, rfl, hres⟩ := ih h
          refine ⟨b :: src, b :: res, rfl, ?_, .raw ⟨hquote, hback, hcontrol⟩ hres⟩
          rw [List.reverse_cons, List.append_assoc]
          rfl

/-- Continuation bytes stand for themselves. -/
theorem Resolves.continuation {src res tail : Bytes} (h : Resolves src (tail ++ res))
    (htail : ∀ b ∈ tail, isContinuation b = true) :
    ∃ src', src = tail ++ src' ∧ Resolves src' res := by
  induction tail generalizing src with
  | nil => exact ⟨src, rfl, h⟩
  | cons b tail ih =>
      rw [List.cons_append] at h
      generalize hres : b :: (tail ++ res) = res' at h
      cases h with
      | nil => cases hres
      | @raw b' src res'' _ h =>
          obtain ⟨rfl, rfl⟩ := List.cons.inj hres
          obtain ⟨src', rfl, hsrc⟩ := ih h fun d hd => htail d (List.mem_cons_of_mem _ hd)
          exact ⟨src', rfl, hsrc⟩
      | @escape c _ _ _ _ _ =>
          obtain ⟨lead, rest, hc, hlead, -⟩ := utf8EncodeChar_shape c
          rw [hc, List.cons_append] at hres
          obtain ⟨rfl, -⟩ := List.cons.inj hres
          rw [htail b (List.mem_cons_self ..)] at hlead
          cases hlead

/-- A character that begins with a byte that stands for itself stands for itself. -/
theorem spellsChar_of_isRaw {c : Char} {lead : UInt8} {tail : Bytes}
    (hc : String.utf8EncodeChar c = lead :: tail) (hlead : IsRaw lead) :
    SpellsChar c (lead :: tail) := by
  rw [← hc]
  by_cases hascii : c.toNat < 0x7F
  · rw [utf8EncodeChar_ascii hascii] at hc
    obtain ⟨rfl, -⟩ := List.cons.inj hc
    obtain ⟨hquote, hback, hcontrol⟩ := hlead
    refine .itself ?_ ?_ ?_
    · rw [UInt8.lt_iff_toNat_lt, toNat_asciiByte hascii] at hcontrol
      exact Nat.not_lt.1 hcontrol
    · rintro rfl
      exact hquote rfl
    · rintro rfl
      exact hback rfl
  · refine .itself (by omega) ?_ ?_
    · rintro rfl
      exact hascii (by decide)
    · rintro rfl
      exact hascii (by decide)

/-- What resolves to the bytes of characters spells the characters. -/
theorem Resolves.spells {cs : List Char} {src : Bytes}
    (h : Resolves src (cs.flatMap String.utf8EncodeChar)) : SpellsChars cs src := by
  induction cs generalizing src with
  | nil =>
      generalize hres : [].flatMap String.utf8EncodeChar = res at h
      cases h with
      | nil => exact .nil
      | raw => cases hres
      | @escape c =>
          obtain ⟨lead, tail, hc, -, -⟩ := utf8EncodeChar_shape c
          rw [hc] at hres
          cases hres
  | cons c cs ih =>
      obtain ⟨lead, tail, hc, -, htail⟩ := utf8EncodeChar_shape c
      rw [List.flatMap_cons] at h
      generalize hres : String.utf8EncodeChar c ++ cs.flatMap String.utf8EncodeChar = res at h
      cases h with
      | nil =>
          rw [hc] at hres
          cases hres
      | @raw b src res' hb h =>
          rw [hc, List.cons_append] at hres
          obtain ⟨rfl, rfl⟩ := List.cons.inj hres
          obtain ⟨src', rfl, hsrc⟩ := h.continuation htail
          rw [← List.cons_append]
          exact .cons (spellsChar_of_isRaw hc hb) (ih hsrc)
      | @escape c' esc src res' hesc h =>
          -- No character's bytes begin another's, as reading them back shows.
          have hread := decodeFrom_encode 0 [] (c :: cs)
          obtain ⟨next, hnext⟩ := decodeFrom_utf8EncodeChar 0 [] c' res'
          rw [List.flatMap_cons, hres, hnext] at hread
          obtain ⟨cs', hcs, rfl⟩ := eq_of_decodeFrom hread
          obtain ⟨rfl, rfl⟩ := List.cons.inj hcs
          rw [← List.cons_append]
          exact .cons hesc (ih h)

/-- A string that is read spells its text. -/
theorem eq_of_readString {bytes rest : Bytes} {text : String}
    (h : readString bytes = .ok (text, rest)) :
    ∃ body, bytes = body ++ 0x22 :: rest ∧ SpellsText text body := by
  rw [readString] at h
  split at h
  · next body _ hbody =>
      split at h
      · next _ htext =>
          obtain ⟨rfl, rfl⟩ := Prod.mk.inj (Except.ok.inj h)
          obtain ⟨src, res, rfl, hres, hsrc⟩ := eq_of_readStringBody hbody
          obtain rfl : body = res := hres
          rw [eq_encode_of_decode htext, encode] at hsrc
          exact ⟨src, rfl, hsrc.spells⟩
      · cases h
  · cases h

end ProductCatalog.Json
