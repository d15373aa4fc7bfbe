import ProductCatalog.Proofs.Json.Spelling

/-!
# Well-formed values are passed over

The grammar of JSON values, with blanks wherever they may stand between two
tokens.  A string may have any escapes, even halves of surrogate pairs, and
a number any sign, places and exponent.  Brackets are described by what
stands between them: entries, each led by blanks, and all but the first by a
comma, up to the closing bracket.  This follows the reader, which knows no
more of a bracket than whether its first entry is still to come.

The reader goes round at most twice for each byte, so that it has rounds
enough for a value of any length and any depth.

## Main definitions

* `WellFormed` — the values and the entries of brackets.
* `Ends` — what may follow a value.

## Main results

* `skipScalar_append` — values without brackets are passed over.
* `WellFormed.skipped` — so are all others, with their brackets.
* `skipValue_append` — up to what follows them.
-/

namespace ProductCatalog.Json

open Text

/-! ## Blanks -/

/-- Blanks between two tokens. -/
def Blanks (w : Bytes) : Prop := ∀ b ∈ w, isBlank b = true

instance (w : Bytes) : Decidable (Blanks w) :=
  inferInstanceAs (Decidable (∀ b ∈ w, isBlank b = true))

theorem Blanks.nil : Blanks [] := fun _ h => nomatch h

theorem skipBlanks_append {w : Bytes} (rest : Bytes) (h : Blanks w) :
    skipBlanks (w ++ rest) = skipBlanks rest :=
  List.dropWhile_append_of_pos h

/-- Blanks are passed over to their end. -/
theorem Blanks.skipped {w : Bytes} (h : Blanks w) : skipBlanks w = [] := by
  have hall := skipBlanks_append [] h
  rwa [List.append_nil] at hall

theorem skipBlanks_cons {b : UInt8} (rest : Bytes) (h : isBlank b = false) :
    skipBlanks (b :: rest) = b :: rest := by
  rw [skipBlanks, List.dropWhile_cons_of_neg (by rw [h]; decide)]

/-- Blanks are passed over up to the next token. -/
theorem skipBlanks_token {w : Bytes} {b : UInt8} (rest : Bytes) (h : Blanks w)
    (hb : isBlank b = false) : skipBlanks (w ++ b :: rest) = b :: rest := by
  rw [skipBlanks_append _ h, skipBlanks_cons _ hb]

/-- What may follow a value: nothing, a blank, a comma or a closing bracket. -/
def Ends (rest : Bytes) : Prop :=
  ∀ b ∈ rest.head?, isBlank b = true ∨ b = 0x2C ∨ b = 0x5D ∨ b = 0x7D

theorem Ends.nil : Ends [] := fun _ h => nomatch h

theorem Ends.of_blanks {w : Bytes} {b : UInt8} {rest : Bytes} (h : Blanks w)
    (hb : b = 0x2C ∨ b = 0x5D ∨ b = 0x7D) : Ends (w ++ b :: rest) := by
  intro d hd
  cases w with
  | nil =>
      obtain rfl : b = d := by simpa using hd
      exact .inr hb
  | cons c w =>
      obtain rfl : c = d := by simpa using hd
      exact .inl (h c (by simp))

/-- No value goes on with what may follow one. -/
theorem Ends.head_ne {b : UInt8} {rest : Bytes} (h : Ends (b :: rest)) :
    isDigit b = false ∧ b ≠ 0x2E ∧ b ≠ 0x65 ∧ b ≠ 0x45 := by
  have hb := h b rfl
  simp only [isBlank, Bool.or_eq_true, decide_eq_true_eq] at hb
  rcases hb with ((((rfl | rfl) | rfl) | rfl) | rfl | rfl | rfl) <;> decide

/-! ## Strings -/

/-- What may stand between the quotes of a string that nobody reads. -/
inductive StringBody : Bytes → Prop
  | nil : StringBody []
  | raw {b : UInt8} {rest : Bytes} (hb : IsRaw b) (h : StringBody rest) : StringBody (b :: rest)
  | letter {c : Char} {b : UInt8} {rest : Bytes} (hb : (c, b) ∈ letterEscapes)
      (h : StringBody rest) : StringBody (0x5C :: b :: rest)
  | numeric {n : Nat} {digits rest : Bytes} (hn : n < 0x10000) (hdigits : Hex4 n digits)
      (h : StringBody rest) : StringBody (0x5C :: 0x75 :: (digits ++ rest))

theorem skipStringBody_append {body : Bytes} (h : StringBody body) (fuel : Nat) (rest : Bytes)
    (hfuel : body.length < fuel) :
    skipStringBody fuel (body ++ 0x22 :: rest) = .ok ((), rest) := by
  induction h generalizing fuel with
  | nil =>
      obtain ⟨fuel, rfl⟩ := Nat.exists_eq_succ_of_ne_zero (by omega : fuel ≠ 0)
      rw [List.nil_append, skipStringBody, if_pos rfl]
  | @raw b body hb _ ih =>
      obtain ⟨fuel, rfl⟩ := Nat.exists_eq_succ_of_ne_zero (by omega : fuel ≠ 0)
      obtain ⟨hquote, hback, hcontrol⟩ := hb
      rw [List.length_cons] at hfuel
      rw [List.cons_append, skipStringBody, if_neg hquote, if_neg hback, if_neg hcontrol,
        ih fuel (by omega)]
  | @letter c b body hb _ ih =>
      obtain ⟨fuel, rfl⟩ := Nat.exists_eq_succ_of_ne_zero (by omega : fuel ≠ 0)
      obtain ⟨hmark, hletter⟩ := simpleEscape?_letter hb
      rw [List.length_cons, List.length_cons] at hfuel
      rw [List.cons_append, List.cons_append, skipStringBody, if_neg (by decide), if_pos rfl,
        skipEscape, if_neg hmark, hletter]
      exact ih fuel (by omega)
  | @numeric n digits body hn hdigits _ ih =>
      obtain ⟨fuel, rfl⟩ := Nat.exists_eq_succ_of_ne_zero (by omega : fuel ≠ 0)
      rw [List.length_cons, List.length_cons, List.length_append] at hfuel
      rw [List.cons_append, List.cons_append, List.append_assoc, skipStringBody,
        if_neg (by decide), if_pos rfl, skipEscape, if_pos rfl, readHex4_spells _ hn hdigits]
      exact ih fuel (by omega)

theorem skipString_append {body : Bytes} (rest : Bytes) (h : StringBody body) :
    skipString (body ++ 0x22 :: rest) = .ok ((), rest) :=
  skipStringBody_append h _ rest (by rw [List.length_append]; omega)

/-! ## Numbers -/

/-- One digit or more. -/
inductive Digits : Bytes → Prop
  | mk {b : UInt8} {ds : Bytes} (hb : isDigit b = true) (hds : ∀ d ∈ ds, isDigit d = true) :
      Digits (b :: ds)

/-- The digits before a point: a zero alone, or digits of which the first is another. -/
inductive Whole : Bytes → Prop
  | zero : Whole [0x30]
  | digits {b : UInt8} {ds : Bytes} (hzero : b ≠ 0x30) (h : Digits (b :: ds)) : Whole (b :: ds)

/-- A point with places, or nothing. -/
inductive Places : Bytes → Prop
  | none : Places []
  | some {ds : Bytes} (h : Digits ds) : Places (0x2E :: ds)

/-- An exponent, or nothing. -/
inductive Power : Bytes → Prop
  | none : Power []
  | some {letter : UInt8} {sign ds : Bytes} (hletter : letter = 0x65 ∨ letter = 0x45)
      (hsign : sign ∈ [[], [0x2B], [0x2D]]) (h : Digits ds) : Power (letter :: (sign ++ ds))

/-- A number after its sign. -/
inductive Magnitude : Bytes → Prop
  | mk {whole places power : Bytes} (hwhole : Whole whole) (hplaces : Places places)
      (hpower : Power power) : Magnitude (whole ++ (places ++ power))

/-- Digits end where none follows. -/
theorem dropWhile_digits {ds rest : Bytes} (h : ∀ d ∈ ds, isDigit d = true)
    (hrest : ∀ b ∈ rest.head?, isDigit b = false) : (ds ++ rest).dropWhile isDigit = rest := by
  rw [List.dropWhile_append_of_pos h]
  cases rest with
  | nil => rfl
  | cons b rest => exact List.dropWhile_cons_of_neg (by rw [hrest b rfl]; decide)

theorem Ends.no_digit {rest : Bytes} (h : Ends rest) : ∀ b ∈ rest.head?, isDigit b = false := by
  intro b hb
  cases rest with
  | nil => cases hb
  | cons d rest =>
      obtain rfl : d = b := by simpa using hb
      exact h.head_ne.1

/-- The sign of an exponent is passed over, and then its digits. -/
theorem skipPower_append {sign ds rest : Bytes} (hsign : sign ∈ [[], [0x2B], [0x2D]])
    (h : Digits ds) (hrest : ∀ b ∈ rest.head?, isDigit b = false) :
    skipPower (sign ++ (ds ++ rest)) = .ok rest := by
  obtain @⟨b, ds, hb, hds⟩ := h
  have hne : b ≠ 0x2B ∧ b ≠ 0x2D := by
    constructor <;> (rintro rfl; exact absurd hb (by decide))
  simp only [List.mem_cons, List.not_mem_nil, or_false] at hsign
  rcases hsign with rfl | rfl | rfl
  · rw [List.nil_append, List.cons_append]
    unfold skipPower
    split
    · next _ heq => exact absurd (List.cons.inj heq).1 hne.1
    · next _ heq => exact absurd (List.cons.inj heq).1 hne.2
    · simp only [hb, if_true, dropWhile_digits hds hrest]
  · simp only [skipPower, List.nil_append, List.cons_append, hb, if_true,
      dropWhile_digits hds hrest]
  · simp only [skipPower, List.nil_append, List.cons_append, hb, if_true,
      dropWhile_digits hds hrest]

theorem skipPowerOrEnd_append {power rest : Bytes} (h : Power power) (hrest : Ends rest) :
    skipPowerOrEnd (power ++ rest) = .ok rest := by
  cases h with
  | none =>
      rw [List.nil_append]
      unfold skipPowerOrEnd
      split
      · exact absurd rfl hrest.head_ne.2.2.1
      · exact absurd rfl hrest.head_ne.2.2.2
      · rfl
  | some hletter hsign hds =>
      have hpower := skipPower_append hsign hds hrest.no_digit
      rw [List.cons_append, List.append_assoc]
      rcases hletter with rfl | rfl <;> exact hpower

theorem Power.no_digit {power rest : Bytes} (h : Power power) (hrest : Ends rest) :
    ∀ b ∈ (power ++ rest).head?, isDigit b = false ∧ b ≠ 0x2E := by
  intro b hb
  cases h with
  | none =>
      cases rest with
      | nil => cases hb
      | cons d rest =>
          obtain rfl : d = b := by simpa using hb
          exact ⟨hrest.head_ne.1, hrest.head_ne.2.1⟩
  | @some letter _ _ hletter _ _ =>
      obtain rfl : letter = b := by simpa using hb
      rcases hletter with rfl | rfl <;> decide

theorem skipAfterDigits_append {places power rest : Bytes} (hplaces : Places places)
    (hpower : Power power) (hrest : Ends rest) :
    skipAfterDigits (places ++ (power ++ rest)) = .ok rest := by
  have hfollow := hpower.no_digit hrest
  have hend := skipPowerOrEnd_append hpower hrest
  cases hplaces with
  | none =>
      rw [List.nil_append]
      unfold skipAfterDigits
      split
      · next heq => exact absurd rfl (hfollow 0x2E (by rw [heq]; rfl)).2
      · exact hend
  | some hds =>
      obtain @⟨b, ds, hb, hds⟩ := hds
      have hdigits := dropWhile_digits hds fun d hd => (hfollow d hd).1
      simp only [List.cons_append, skipAfterDigits, skipPlaces, hb, if_true, hdigits, bind,
        Except.bind, hend]

/-- No digit and no point of its own follows the whole digits of a number. -/
theorem Places.no_digit {places power rest : Bytes} (h : Places places) (hpower : Power power)
    (hrest : Ends rest) : ∀ b ∈ (places ++ (power ++ rest)).head?, isDigit b = false := by
  intro b hb
  cases h with
  | none => exact (hpower.no_digit hrest b hb).1
  | some _ =>
      obtain rfl : 0x2E = b := by simpa using hb
      decide

theorem skipNumber_append {number rest : Bytes} (h : Magnitude number) (hrest : Ends rest) :
    skipNumber (number ++ rest) = .ok rest := by
  obtain @⟨whole, places, power, hwhole, hplaces, hpower⟩ := h
  have hfollow := hplaces.no_digit hpower hrest
  have hend := skipAfterDigits_append hplaces hpower hrest
  rw [List.append_assoc, List.append_assoc]
  cases hwhole with
  | zero =>
      rw [List.cons_append, List.nil_append, skipNumber.eq_def]
      simp only [if_true]
      generalize places ++ (power ++ rest) = tail at hfollow hend ⊢
      cases tail with
      | nil => exact hend
      | cons c tail =>
          rw [← hend]
          simp only [hfollow c rfl, Bool.false_eq_true, if_false]
  | @digits b ds hzero hds =>
      obtain ⟨hb, hds⟩ := hds
      rw [List.cons_append, skipNumber.eq_def]
      simp only [hzero, hb, if_true, if_false, dropWhile_digits hds hfollow, hend]

/-! ## Values without brackets -/

/-- A value without brackets. -/
inductive Scalar : Bytes → Prop
  | null : Scalar (0x6E :: nullTail)
  | yes : Scalar (0x74 :: trueTail)
  | no : Scalar (0x66 :: falseTail)
  | natural {number : Bytes} (h : Magnitude number) : Scalar number
  | negative {number : Bytes} (h : Magnitude number) : Scalar (0x2D :: number)
  | string {body : Bytes} (h : StringBody body) : Scalar (0x22 :: (body ++ [0x22]))

theorem readIdent_append (expected rest : Bytes) :
    readIdent expected (expected ++ rest) = .ok ((), rest) := by
  induction expected with
  | nil => rfl
  | cons b expected ih => rw [List.cons_append, readIdent, if_pos rfl, ih]

theorem Magnitude.head {number : Bytes} (h : Magnitude number) :
    ∃ b tail, number = b :: tail ∧ isDigit b = true := by
  obtain ⟨hwhole, -, -⟩ := h
  cases hwhole with
  | zero => exact ⟨_, _, rfl, by decide⟩
  | digits _ hds =>
      obtain ⟨hb, -⟩ := hds
      exact ⟨_, _, rfl, hb⟩

/-- No sign of the grammar is a digit. -/
theorem ne_of_isDigit {b d : UInt8} (hb : isDigit b = true) (hd : isDigit d = false) : b ≠ d := by
  rintro rfl
  rw [hd] at hb
  cases hb

/-- Values without brackets are passed over. -/
theorem skipScalar_append {v rest : Bytes} (h : Scalar v) (hrest : Ends rest) :
    skipScalar (v ++ rest) = .ok rest := by
  cases h with
  | null =>
      rw [List.cons_append, skipScalar, if_pos rfl, readIdent_append]
      rfl
  | yes =>
      rw [List.cons_append, skipScalar, if_neg (by decide), if_pos rfl, readIdent_append]
      rfl
  | no =>
      rw [List.cons_append, skipScalar, if_neg (by decide), if_neg (by decide), if_pos rfl,
        readIdent_append]
      rfl
  | natural h =>
      have hskip := skipNumber_append h hrest
      obtain ⟨b, tail, rfl, hb⟩ := h.head
      have hne : ∀ d, isDigit d = false → b ≠ d := fun d => ne_of_isDigit hb
      rw [List.cons_append, skipScalar, if_neg (hne _ (by decide)), if_neg (hne _ (by decide)),
        if_neg (hne _ (by decide)), if_neg (hne _ (by decide)), if_pos hb]
      exact hskip
  | negative h =>
      rw [List.cons_append, skipScalar, if_neg (by decide), if_neg (by decide),
        if_neg (by decide), if_pos rfl, skipNumber_append h hrest]
  | string h =>
      rw [List.cons_append, List.append_assoc, List.cons_append, List.nil_append, skipScalar,
        if_neg (by decide), if_neg (by decide), if_neg (by decide), if_neg (by decide),
        if_neg (by decide), if_pos rfl, skipString_append _ h]
      rfl

/-- No value without brackets begins with a blank or with a bracket. -/
theorem Scalar.head {v : Bytes} (h : Scalar v) :
    ∃ b tail, v = b :: tail ∧ isBlank b = false ∧ b ∉ [0x5B, 0x7B, 0x5D, 0x7D] := by
  have hdigit : ∀ {number : Bytes}, Magnitude number →
      ∃ b tail, number = b :: tail ∧ isBlank b = false ∧ b ∉ [0x5B, 0x7B, 0x5D, 0x7D] := by
    intro number h
    obtain ⟨b, tail, rfl, hb⟩ := h.head
    refine ⟨b, tail, rfl, ?_, ?_⟩
    · simp only [isBlank, Bool.or_eq_false_iff, decide_eq_false_iff_not]
      refine ⟨⟨⟨?_, ?_⟩, ?_⟩, ?_⟩ <;> exact ne_of_isDigit hb (by decide)
    · simp only [List.mem_cons, List.not_mem_nil, or_false, not_or]
      refine ⟨?_, ?_, ?_, ?_⟩ <;> exact ne_of_isDigit hb (by decide)
  cases h with
  | natural h => exact hdigit h
  | null | yes | no | negative | string => exact ⟨_, _, rfl, by decide, by decide⟩

/-! ## Brackets -/

/-- The byte that opens a bracket. -/
def Bracket.opening : Bracket → UInt8
  | list => 0x5B
  | object => 0x7B

/-- What leads an entry of a bracket: blanks, after a comma unless the entry is the first. -/
inductive Lead : (first : Bool) → Bytes → Prop
  | first {w : Bytes} (h : Blanks w) : Lead true w
  | next {w w' : Bytes} (h : Blanks w) (h' : Blanks w') : Lead false (w ++ 0x2C :: w')

/-- What stands before the value of an entry: a name with its colon, if the bracket is an
object. -/
inductive Label : Bracket → Bytes → Prop
  | list : Label .list []
  | object {name w w' : Bytes} (hname : StringBody name) (h : Blanks w) (h' : Blanks w') :
      Label .object (0x22 :: (name ++ 0x22 :: (w ++ 0x3A :: w')))

/-- The two things that the grammar describes. -/
inductive Part
  /-- A value. -/
  | value
  /-- What stands between the brackets, or what is left of it behind an entry. -/
  | entries (bracket : Bracket) (first : Bool)

/-- The well-formed values of JSON, and what may stand between brackets. -/
inductive WellFormed : Part → Bytes → Prop
  | scalar {v : Bytes} (h : Scalar v) : WellFormed .value v
  | bracketed {bracket : Bracket} {es : Bytes} (h : WellFormed (.entries bracket true) es) :
      WellFormed .value (bracket.opening :: (es ++ [bracket.close]))
  | done {bracket : Bracket} {first : Bool} {w : Bytes} (h : Blanks w) :
      WellFormed (.entries bracket first) w
  | entry {bracket : Bracket} {first : Bool} {lead label v es : Bytes} (hlead : Lead first lead)
      (hlabel : Label bracket label) (hv : WellFormed .value v)
      (hes : WellFormed (.entries bracket false) es) :
      WellFormed (.entries bracket first) (lead ++ (label ++ (v ++ es)))

theorem Lead.ends {lead : Bytes} (h : Lead false lead) (rest : Bytes) : Ends (lead ++ rest) := by
  obtain _ | @⟨w, w', h, -⟩ := h
  rw [List.append_assoc, List.cons_append]
  exact .of_blanks h (.inl rfl)

/-- What is left of a bracket may follow a value. -/
theorem WellFormed.ends {bracket : Bracket} {es : Bytes}
    (h : WellFormed (.entries bracket false) es) (rest : Bytes) :
    Ends (es ++ bracket.close :: rest) := by
  cases h with
  | done h => exact .of_blanks h (by cases bracket <;> decide)
  | entry hlead _ _ _ =>
      rw [List.append_assoc]
      exact hlead.ends _

/-- No value begins with a blank or a closing bracket. -/
theorem WellFormed.head {v : Bytes} (h : WellFormed .value v) :
    ∃ b tail, v = b :: tail ∧ isBlank b = false ∧ ∀ bracket : Bracket, b ≠ bracket.close := by
  cases h with
  | scalar h =>
      obtain ⟨b, tail, rfl, hblank, hb⟩ := h.head
      simp only [List.mem_cons, List.not_mem_nil, or_false, not_or] at hb
      refine ⟨b, tail, rfl, hblank, fun bracket => ?_⟩
      cases bracket with
      | list => exact hb.2.2.1
      | object => exact hb.2.2.2
  | @bracketed bracket =>
      refine ⟨_, _, rfl, ?_, ?_⟩
      · cases bracket <;> decide
      · intro other
        cases bracket <;> cases other <;> decide

/-- Neither does an entry, behind what leads it. -/
theorem Label.head {bracket : Bracket} {label v : Bytes} (h : Label bracket label)
    (hv : WellFormed .value v) (rest : Bytes) :
    ∃ b tail, label ++ (v ++ rest) = b :: tail ∧ isBlank b = false ∧ b ≠ bracket.close := by
  cases h with
  | list =>
      obtain ⟨b, tail, rfl, hblank, hb⟩ := hv.head
      exact ⟨b, tail ++ rest, rfl, hblank, hb .list⟩
  | object => exact ⟨_, _, rfl, by decide, by decide⟩

/-! ## Passing over -/

/-- What may come next between brackets. -/
def entryNext (first : Bool) : Next := if first then .firstEntry else .separator

/-- A label is passed over, but perhaps for blanks. -/
theorem skipName_append {bracket : Bracket} {label w : Bytes} (rest : Bytes)
    (h : Label bracket label) (hw : Blanks w) :
    ∃ w', Blanks w' ∧ skipName bracket (w ++ (label ++ rest)) = .ok (w' ++ rest) := by
  cases h with
  | list => exact ⟨w, hw, rfl⟩
  | @object name w₁ w₂ hname h₁ h₂ =>
      refine ⟨w₂, h₂, ?_⟩
      have hstring := skipString_append (w₁ ++ 0x3A :: (w₂ ++ rest)) hname
      simp only [List.cons_append, List.append_assoc, skipName,
        skipBlanks_token _ hw (by decide : isBlank 0x22 = false), if_true, bind, Except.bind, pure,
        Except.pure, hstring, skipBlanks_token _ h₁ (by decide : isBlank 0x3A = false)]

/-- The first round at a value without brackets is the last. -/
theorem skipFrom_scalar {v w rest : Bytes} (fuel : Nat) (open_ : List Bracket) (h : Scalar v)
    (hw : Blanks w) (hrest : Ends rest) :
    skipFrom (fuel + 1) .value open_ (w ++ (v ++ rest)) = skipFrom fuel .separator open_ rest := by
  have hskip := skipScalar_append h hrest
  obtain ⟨b, tail, rfl, hblank, hb⟩ := h.head
  simp only [List.mem_cons, List.not_mem_nil, or_false, not_or] at hb
  rw [List.cons_append] at hskip
  rw [List.cons_append, skipFrom, skipBlanks_token _ hw hblank]
  simp only [hb.1, hb.2.1, if_false, hskip]

theorem skipFrom_open {w : Bytes} (fuel : Nat) (open_ : List Bracket) (bracket : Bracket)
    (rest : Bytes) (hw : Blanks w) :
    skipFrom (fuel + 1) .value open_ (w ++ bracket.opening :: rest) =
      skipFrom fuel .firstEntry (bracket :: open_) rest := by
  have hblank : isBlank bracket.opening = false := by cases bracket <;> decide
  rw [skipFrom, skipBlanks_token _ hw hblank]
  cases bracket <;> rfl

theorem skipFrom_close {w : Bytes} (fuel : Nat) (first : Bool) (bracket : Bracket)
    (outer : List Bracket) (rest : Bytes) (hw : Blanks w) :
    skipFrom (fuel + 1) (entryNext first) (bracket :: outer) (w ++ bracket.close :: rest) =
      skipFrom fuel .separator outer rest := by
  have hblank : isBlank bracket.close = false := by cases bracket <;> decide
  cases first <;> simp [entryNext, skipFrom, skipBlanks_token _ hw hblank]

/-- A round takes what stands before the value of an entry. -/
theorem skipFrom_entry {bracket : Bracket} {first : Bool} {lead label v : Bytes} (fuel : Nat)
    (outer : List Bracket) (rest : Bytes) (hlead : Lead first lead) (hlabel : Label bracket label)
    (hv : WellFormed .value v) :
    ∃ w, Blanks w ∧
      skipFrom (fuel + 1) (entryNext first) (bracket :: outer) (lead ++ (label ++ (v ++ rest))) =
        skipFrom fuel .value (bracket :: outer) (w ++ (v ++ rest)) := by
  cases hlead with
  | first hw =>
      obtain ⟨w', hw', hname⟩ := skipName_append (v ++ rest) hlabel Blanks.nil
      obtain ⟨b, tail, hlabel, hblank, hclose⟩ := hlabel.head hv rest
      refine ⟨w', hw', ?_⟩
      rw [List.nil_append, hlabel] at hname
      rw [hlabel]
      simp [entryNext, skipFrom, skipBlanks_token _ hw hblank, hclose, hname]
  | next hw hw' =>
      obtain ⟨w'', hw'', hname⟩ := skipName_append (v ++ rest) hlabel hw'
      refine ⟨w'', hw'', ?_⟩
      have hclose : (0x2C : UInt8) ≠ bracket.close := by cases bracket <;> decide
      rw [List.append_assoc, List.cons_append]
      simp [entryNext, skipFrom, skipBlanks_token _ hw (by decide : isBlank 0x2C = false), hclose,
        hname]

/-- A part of the grammar is passed over, in at most two rounds a byte. -/
def Part.Skipped : Part → Bytes → Prop
  | .value, v => ∃ k, k + 1 ≤ 2 * v.length ∧ ∀ fuel open_ w rest, Blanks w → Ends rest →
      skipFrom (fuel + k) .value open_ (w ++ (v ++ rest)) = skipFrom fuel .separator open_ rest
  | .entries bracket first, es => ∃ k, k ≤ 2 * es.length + 1 ∧ ∀ fuel outer rest,
      skipFrom (fuel + k) (entryNext first) (bracket :: outer) (es ++ bracket.close :: rest) =
        skipFrom fuel .separator outer rest

/-- What is well formed is passed over. -/
theorem WellFormed.skipped {part : Part} {bytes : Bytes} (h : WellFormed part bytes) :
    part.Skipped bytes := by
  induction h with
  | @scalar v h =>
      obtain ⟨b, tail, hv, -⟩ := h.head
      refine ⟨1, by rw [hv, List.length_cons]; omega, fun fuel open_ w rest hw hrest => ?_⟩
      exact skipFrom_scalar fuel open_ h hw hrest
  | @bracketed bracket es _ ih =>
      obtain ⟨k, hk, hskip⟩ := ih
      refine ⟨k + 1, ?_, fun fuel open_ w rest hw _ => ?_⟩
      · rw [List.length_cons, List.length_append, List.length_singleton]
        omega
      · rw [← Nat.add_assoc, List.cons_append, List.append_assoc, List.cons_append,
          List.nil_append, skipFrom_open _ _ _ _ hw]
        exact hskip fuel open_ rest
  | @done bracket first w h =>
      exact ⟨1, by omega, fun fuel outer rest => skipFrom_close fuel first bracket outer rest h⟩
  | @entry bracket first lead label v es hlead hlabel hv hes ihv ihes =>
      obtain ⟨k, hk, hvalue⟩ := ihv
      obtain ⟨k', hk', hentries⟩ := ihes
      refine ⟨k' + k + 1, ?_, fun fuel outer rest => ?_⟩
      · simp only [List.length_append]
        omega
      · obtain ⟨w, hw, hentry⟩ := skipFrom_entry (fuel + k' + k) outer
          (es ++ bracket.close :: rest) hlead hlabel hv
        simp only [← Nat.add_assoc, List.append_assoc]
        rw [hentry, hvalue _ _ _ _ hw (hes.ends rest)]
        exact hentries fuel outer rest

/-- A value is passed over up to what follows it. -/
theorem skipValue_append {v w rest : Bytes} (h : WellFormed .value v) (hw : Blanks w)
    (hrest : Ends rest) : skipValue (w ++ (v ++ rest)) = .ok rest := by
  obtain ⟨k, hk, hskip⟩ := h.skipped
  obtain ⟨fuel, hfuel⟩ : ∃ fuel, 2 * (w ++ (v ++ rest)).length + 2 = fuel + 1 + k := by
    refine ⟨2 * (w ++ (v ++ rest)).length + 1 - k, ?_⟩
    simp only [List.length_append]
    omega
  rw [skipValue, hfuel, hskip _ _ _ _ hw hrest]
  rfl

end ProductCatalog.Json
