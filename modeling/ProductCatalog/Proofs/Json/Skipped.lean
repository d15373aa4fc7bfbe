import ProductCatalog.Proofs.Json.Grammar
import ProductCatalog.Proofs.Json.Resolved

/-!
# What is passed over is well formed

The converse of the grammar's main result: whatever the reader passes over
as a value is one of the grammar.  Strings, numbers and literals are taken
apart as the reader takes them.

Between brackets the reader holds what it has opened in a list and closes
it later, so the bytes after a value have to finish every bracket of the
list before there is a value at all.  `Closes` says what this takes, and
`Remains` what the reader still has to meet in each of its three positions.

## Main definitions

* `Closes` — what is left of open brackets.
* `Remains` — what is left of a value that is being passed over.

## Main results

* `eq_of_skipScalar` — a value without brackets that is passed over is well formed.
* `remains_of_skipFrom` — what is passed over finishes the open brackets.
* `eq_of_skipValue` — a value that is passed over is well formed.
-/

namespace ProductCatalog.Json

open Text

/-- The blanks that are passed over are blanks. -/
theorem exists_blanks (bytes : Bytes) : ∃ w, Blanks w ∧ bytes = w ++ skipBlanks bytes :=
  ⟨bytes.takeWhile isBlank, List.all_eq_true.1 List.all_takeWhile,
    List.takeWhile_append_dropWhile.symm⟩

theorem Blanks.append {w w' : Bytes} (h : Blanks w) (h' : Blanks w') : Blanks (w ++ w') := by
  intro b hb
  rcases List.mem_append.1 hb with hb | hb
  · exact h b hb
  · exact h' b hb

/-! ## Strings -/

/-- An escape that is passed over may stand in a string. -/
theorem eq_of_skipEscape {bytes rest : Bytes} {u : Unit} (h : skipEscape bytes = .ok (u, rest)) :
    ∃ esc, bytes = esc ++ rest ∧
      ∀ body, StringBody body → StringBody (0x5C :: (esc ++ body)) := by
  cases bytes with
  | nil => cases h
  | cons b bytes =>
      rw [skipEscape] at h
      split at h
      · next hmark =>
          obtain ⟨⟨n, tail⟩, hn, htail⟩ := exists_of_map_ok h
          obtain ⟨-, rfl⟩ := Prod.mk.inj htail
          obtain ⟨digits, rfl, hdigits, hlt⟩ := eq_of_readHex4 hn
          refine ⟨b :: digits, rfl, fun body hbody => ?_⟩
          rw [hmark]
          exact .numeric hlt hdigits hbody
      · split at h
        · next hletter =>
            obtain ⟨-, rfl⟩ := Prod.mk.inj (Except.ok.inj h)
            exact ⟨[b], rfl, fun body hbody => .letter (mem_of_simpleEscape? hletter) hbody⟩
        · cases h

theorem eq_of_skipStringBody {fuel : Nat} {bytes rest : Bytes} {u : Unit}
    (h : skipStringBody fuel bytes = .ok (u, rest)) :
    ∃ body, bytes = body ++ 0x22 :: rest ∧ StringBody body := by
  induction fuel generalizing bytes with
  | zero => cases h
  | succ fuel ih =>
      cases bytes with
      | nil => cases h
      | cons b bytes =>
          rw [skipStringBody] at h
          split at h
          · next hquote =>
              obtain ⟨-, rfl⟩ := Prod.mk.inj (Except.ok.inj h)
              exact ⟨[], by rw [hquote]; rfl, .nil⟩
          next hquote =>
          split at h
          · next hback =>
              split at h
              · next tail hesc =>
                  obtain ⟨esc, rfl, hstring⟩ := eq_of_skipEscape hesc
                  obtain ⟨body, rfl, hbody⟩ := ih h
                  refine ⟨0x5C :: (esc ++ body), ?_, hstring body hbody⟩
                  rw [hback, List.cons_append, List.append_assoc]
              · cases h
          next hback =>
          split at h
          · cases h
          next hcontrol =>
          obtain ⟨body, rfl, hbody⟩ := ih h
          exact ⟨b :: body, rfl, .raw ⟨hquote, hback, hcontrol⟩ hbody⟩

theorem eq_of_skipString {bytes rest : Bytes} {u : Unit} (h : skipString bytes = .ok (u, rest)) :
    ∃ body, bytes = body ++ 0x22 :: rest ∧ StringBody body :=
  eq_of_skipStringBody h

/-! ## Numbers -/

/-- The digits that are passed over are digits. -/
theorem exists_digits {b : UInt8} (bytes : Bytes) (hb : isDigit b = true) :
    ∃ ds, Digits (b :: ds) ∧ bytes = ds ++ bytes.dropWhile isDigit :=
  ⟨bytes.takeWhile isDigit, .mk hb (List.all_eq_true.1 List.all_takeWhile),
    List.takeWhile_append_dropWhile.symm⟩

theorem eq_of_skipPlaces {bytes rest : Bytes} (h : skipPlaces bytes = .ok rest) :
    ∃ ds, Digits ds ∧ bytes = ds ++ rest := by
  unfold skipPlaces at h
  split at h
  · next b tail =>
      split at h
      · next hb =>
          obtain ⟨ds, hds, heq⟩ := exists_digits tail hb
          obtain rfl := Except.ok.inj h
          exact ⟨b :: ds, hds, congrArg (b :: ·) heq⟩
      · cases h
  · cases h

theorem eq_of_skipPower {bytes rest : Bytes} (h : skipPower bytes = .ok rest) :
    ∃ sign ds, sign ∈ [[], [0x2B], [0x2D]] ∧ Digits ds ∧ bytes = sign ++ (ds ++ rest) := by
  have hsign : ∃ sign tail, sign ∈ [[], [0x2B], [0x2D]] ∧ bytes = sign ++ tail ∧
      (match tail with
        | b :: tail =>
          if isDigit b then .ok (tail.dropWhile isDigit) else failAt .invalidNumber tail
        | [] => failAt .invalidNumber []) = Except.ok rest := by
    unfold skipPower at h
    split at h
    · next tail => exact ⟨[0x2B], tail, by decide, rfl, h⟩
    · next tail => exact ⟨[0x2D], tail, by decide, rfl, h⟩
    · exact ⟨[], bytes, by decide, rfl, h⟩
  obtain ⟨sign, tail, hmem, rfl, htail⟩ := hsign
  split at htail
  · next b tail =>
      split at htail
      · next hb =>
          obtain ⟨ds, hds, heq⟩ := exists_digits tail hb
          obtain rfl := Except.ok.inj htail
          exact ⟨sign, b :: ds, hmem, hds, congrArg (fun t => sign ++ b :: t) heq⟩
      · cases htail
  · cases htail

theorem eq_of_skipPowerOrEnd {bytes rest : Bytes} (h : skipPowerOrEnd bytes = .ok rest) :
    ∃ power, Power power ∧ bytes = power ++ rest := by
  have hletter : ∀ {letter : UInt8} {tail : Bytes}, letter = 0x65 ∨ letter = 0x45 →
      skipPower tail = .ok rest → ∃ power, Power power ∧ letter :: tail = power ++ rest := by
    intro letter tail hletter hpower
    obtain ⟨sign, ds, hsign, hds, rfl⟩ := eq_of_skipPower hpower
    refine ⟨letter :: (sign ++ ds), .some hletter hsign hds, ?_⟩
    rw [List.cons_append, List.append_assoc]
  unfold skipPowerOrEnd at h
  split at h
  · exact hletter (.inl rfl) h
  · exact hletter (.inr rfl) h
  · obtain rfl := Except.ok.inj h
    exact ⟨[], .none, rfl⟩

theorem eq_of_skipAfterDigits {bytes rest : Bytes} (h : skipAfterDigits bytes = .ok rest) :
    ∃ places power, Places places ∧ Power power ∧ bytes = places ++ (power ++ rest) := by
  unfold skipAfterDigits at h
  split at h
  · obtain ⟨tail, hplaces, hend⟩ := exists_of_bind_ok h
    obtain ⟨ds, hds, rfl⟩ := eq_of_skipPlaces hplaces
    obtain ⟨power, hpower, rfl⟩ := eq_of_skipPowerOrEnd hend
    exact ⟨0x2E :: ds, power, .some hds, hpower, rfl⟩
  · obtain ⟨power, hpower, rfl⟩ := eq_of_skipPowerOrEnd h
    exact ⟨[], power, .none, hpower, rfl⟩

theorem eq_of_skipNumber {bytes rest : Bytes} (h : skipNumber bytes = .ok rest) :
    ∃ number, Magnitude number ∧ bytes = number ++ rest := by
  have hafter : ∀ {whole tail : Bytes}, Whole whole → skipAfterDigits tail = .ok rest →
      ∃ number, Magnitude number ∧ whole ++ tail = number ++ rest := by
    intro whole tail hwhole htail
    obtain ⟨places, power, hplaces, hpower, rfl⟩ := eq_of_skipAfterDigits htail
    refine ⟨_, .mk hwhole hplaces hpower, ?_⟩
    rw [List.append_assoc, List.append_assoc]
  unfold skipNumber at h
  split at h
  · cases h
  next b tail =>
  split at h
  · next hzero =>
      subst hzero
      split at h
      · split at h
        · cases h
        · exact hafter .zero h
      · exact hafter .zero h
  next hzero =>
  split at h
  · next hb =>
      obtain ⟨ds, hds, heq⟩ := exists_digits tail hb
      rw [heq]
      exact hafter (.digits hzero hds) h
  · cases h

/-! ## Values without brackets -/

theorem eq_of_readIdent {expected bytes rest : Bytes} {u : Unit}
    (h : readIdent expected bytes = .ok (u, rest)) : bytes = expected ++ rest := by
  induction expected generalizing bytes with
  | nil =>
      obtain ⟨-, rfl⟩ := Prod.mk.inj (Except.ok.inj h)
      rfl
  | cons e expected ih =>
      cases bytes with
      | nil => cases h
      | cons b bytes =>
          rw [readIdent] at h
          split at h
          · next hb => rw [hb, ih h, List.cons_append]
          · cases h

/-- A value without brackets that is passed over is well formed. -/
theorem eq_of_skipScalar {bytes rest : Bytes} (h : skipScalar bytes = .ok rest) :
    ∃ v, Scalar v ∧ bytes = v ++ rest := by
  have hident : ∀ {b : UInt8} {expected tail : Bytes}, Scalar (b :: expected) →
      (readIdent expected tail).map Prod.snd = .ok rest →
        ∃ v, Scalar v ∧ b :: tail = v ++ rest := by
    intro b expected tail hscalar htail
    obtain ⟨_, hread, rfl⟩ := exists_of_map_ok htail
    exact ⟨_, hscalar, congrArg (b :: ·) (eq_of_readIdent hread)⟩
  unfold skipScalar at h
  split at h
  · cases h
  next b tail =>
  split at h
  · next hb => subst hb; exact hident .null h
  split at h
  · next hb => subst hb; exact hident .yes h
  split at h
  · next hb => subst hb; exact hident .no h
  split at h
  · next hb =>
      obtain ⟨number, hnumber, rfl⟩ := eq_of_skipNumber h
      exact ⟨0x2D :: number, .negative hnumber, by rw [hb]; rfl⟩
  split at h
  · obtain ⟨number, hnumber, heq⟩ := eq_of_skipNumber h
    exact ⟨number, .natural hnumber, heq⟩
  split at h
  · next hb =>
      obtain ⟨_, hstring, rfl⟩ := exists_of_map_ok h
      obtain ⟨body, rfl, hbody⟩ := eq_of_skipString hstring
      refine ⟨0x22 :: (body ++ [0x22]), .string hbody, ?_⟩
      rw [hb, List.cons_append, List.append_assoc]
      rfl
  · cases h

/-! ## Brackets -/

/-- The bytes after a value that finish the open brackets, innermost first. -/
inductive Closes : List Bracket → Bytes → Bytes → Prop
  | nil {rest : Bytes} : Closes [] rest rest
  | cons {bracket : Bracket} {outer : List Bracket} {es bytes rest : Bytes}
      (hes : WellFormed (.entries bracket false) es) (h : Closes outer bytes rest) :
      Closes (bracket :: outer) (es ++ bracket.close :: bytes) rest

/-- What is left of a value inside the open brackets, by what may come next. -/
def Remains : Next → List Bracket → Bytes → Bytes → Prop
  | .value, open_, bytes, rest => ∃ w v tail, Blanks w ∧ WellFormed .value v ∧
      bytes = w ++ (v ++ tail) ∧ Closes open_ tail rest
  | .separator, open_, bytes, rest => Closes open_ bytes rest
  | .firstEntry, [], bytes, rest => bytes = rest
  | .firstEntry, bracket :: outer, bytes, rest => ∃ es tail,
      WellFormed (.entries bracket true) es ∧ bytes = es ++ bracket.close :: tail ∧
        Closes outer tail rest

/-- A label that is passed over is one, with any blanks that follow it. -/
theorem eq_of_skipName {bracket : Bracket} {bytes w rest : Bytes}
    (h : skipName bracket bytes = .ok (w ++ rest)) (hw : Blanks w) :
    ∃ w' label, Blanks w' ∧ Label bracket label ∧ bytes = w' ++ (label ++ rest) := by
  cases bracket with
  | list =>
      obtain rfl := Except.ok.inj h
      exact ⟨w, [], hw, .list, rfl⟩
  | object =>
      obtain ⟨w₀, hw₀, hbytes⟩ := exists_blanks bytes
      simp only [skipName, bind, Except.bind, pure, Except.pure] at h
      split at h
      · cases h
      next b tail hquote =>
      split at h
      · next hb =>
          split at h
          · cases h
          next read hstring =>
          obtain ⟨name, hname, hbody⟩ := eq_of_skipString hstring
          obtain ⟨w₁, hw₁, hread⟩ := exists_blanks read.2
          split at h
          · cases h
          next c _ hcolon =>
          split at h
          · next hc =>
              obtain rfl := Except.ok.inj h
              refine ⟨w₀, _, hw₀, .object hbody hw₁ hw, ?_⟩
              rw [hbytes, hquote, hname, hread, hcolon, hb, hc]
              simp
          · cases h
      · cases h

/-- An entry is what leads it, its label, its value and what is left of the bracket behind it. -/
theorem Closes.entry {bracket : Bracket} {outer : List Bracket} {first : Bool}
    {lead label v tail rest : Bytes} (h : Closes (bracket :: outer) tail rest)
    (hlead : Lead first lead) (hlabel : Label bracket label) (hv : WellFormed .value v) :
    ∃ es tail', WellFormed (.entries bracket first) es ∧
      lead ++ (label ++ (v ++ tail)) = es ++ bracket.close :: tail' ∧ Closes outer tail' rest := by
  cases h with
  | @cons _ _ es tail' _ hes h =>
      refine ⟨_, tail', .entry hlead hlabel hv hes, ?_, h⟩
      simp only [List.append_assoc]

/-- What is passed over finishes the open brackets. -/
theorem remains_of_skipFrom {fuel : Nat} {next : Next} {open_ : List Bracket}
    {bytes rest : Bytes} (h : skipFrom fuel next open_ bytes = .ok rest) :
    Remains next open_ bytes rest := by
  induction fuel generalizing next open_ bytes with
  | zero => cases h
  | succ fuel ih =>
      obtain ⟨w, hw, hbytes⟩ := exists_blanks bytes
      have hbracketed : ∀ (bracket : Bracket) {tail : Bytes},
          skipFrom fuel .firstEntry (bracket :: open_) tail = .ok rest →
            Remains .value open_ (w ++ bracket.opening :: tail) rest := by
        intro bracket tail htail
        obtain ⟨es, tail', hes, rfl, hcloses⟩ := ih htail
        refine ⟨w, _, tail', hw, .bracketed hes, ?_, hcloses⟩
        simp
      have hentry : ∀ {bracket : Bracket} {outer : List Bracket} {tail rest₁ : Bytes},
          skipName bracket tail = .ok rest₁ →
          skipFrom fuel .value (bracket :: outer) rest₁ = .ok rest →
            ∃ w' label v tail', Blanks w' ∧ Label bracket label ∧ WellFormed .value v ∧
              tail = w' ++ (label ++ (v ++ tail')) ∧ Closes (bracket :: outer) tail' rest := by
        intro bracket outer tail rest₁ hname hvalue
        obtain ⟨w₂, v, tail', hw₂, hv, rfl, hcloses⟩ := ih hvalue
        obtain ⟨w', label, hw', hlabel, rfl⟩ := eq_of_skipName hname hw₂
        exact ⟨w', label, v, tail', hw', hlabel, hv, rfl, hcloses⟩
      cases next with
      | value =>
          rw [skipFrom] at h
          split at h
          · cases h
          next b tail hskip =>
          rw [hbytes, hskip]
          split at h
          · next hb => rw [hb]; exact hbracketed .list h
          split at h
          · next hb => rw [hb]; exact hbracketed .object h
          split at h
          · cases h
          next rest₁ hscalar =>
          obtain ⟨v, hv, heq⟩ := eq_of_skipScalar hscalar
          rw [heq]
          exact ⟨w, v, rest₁, hw, .scalar hv, rfl, ih h⟩
      | firstEntry =>
          cases open_ with
          | nil => exact Except.ok.inj h
          | cons bracket outer =>
              rw [skipFrom.eq_def] at h
              dsimp only at h
              split at h
              · cases h
              next b tail hskip =>
              rw [hbytes, hskip]
              split at h
              · next hb => exact ⟨w, tail, .done hw, by rw [hb], ih h⟩
              rw [if_neg (by decide)] at h
              split at h
              · cases h
              next rest₁ hname =>
              obtain ⟨w', label, v, tail', hw', hlabel, hv, htail, hcloses⟩ := hentry hname h
              rw [htail, ← List.append_assoc]
              exact hcloses.entry (.first (hw.append hw')) hlabel hv
      | separator =>
          cases open_ with
          | nil =>
              obtain rfl := Except.ok.inj h
              exact .nil
          | cons bracket outer =>
              rw [skipFrom.eq_def] at h
              dsimp only at h
              split at h
              · cases h
              next b tail hskip =>
              rw [hbytes, hskip]
              split at h
              · next hb =>
                  rw [hb]
                  exact .cons (.done hw) (ih h)
              rw [if_pos rfl] at h
              split at h
              · next hb =>
                  split at h
                  · cases h
                  next rest₁ hname =>
                  obtain ⟨w', label, v, tail', hw', hlabel, hv, htail, hcloses⟩ := hentry hname h
                  obtain ⟨es, tail'', hes, heq, hcloses'⟩ :=
                    hcloses.entry (.next hw hw') hlabel hv
                  rw [hb, htail, ← List.cons_append, ← List.append_assoc, heq]
                  exact .cons hes hcloses'
              · cases h

/-- A value that is passed over is well formed. -/
theorem eq_of_skipValue {bytes rest : Bytes} (h : skipValue bytes = .ok rest) :
    ∃ w v, Blanks w ∧ WellFormed .value v ∧ bytes = w ++ (v ++ rest) := by
  obtain ⟨w, v, tail, hw, hv, rfl, hcloses⟩ := remains_of_skipFrom h
  cases hcloses
  exact ⟨w, v, hw, hv, rfl⟩

end ProductCatalog.Json
