import Mathlib.Data.ENat.Basic
import Mathlib.Data.ENat.Lattice
import ProductCatalog.Database.Connection

/-!
# The course of the attempts to connect

The attempts end: with the first that succeeds, or with the one that follows
the last repetition that the limit allows. Between two of them lies exactly
one pause, and none follows the last.

The count of the attempts has as many bits as the limit on repetitions. So
there is one exception, a course of which all but the very last attempt fail
under the greatest limit: the attempt that is still allowed has no number,
and the attempts break off in front of it, after a pause.

All is derived from one fact about the loop: after so many failed attempts it
stands at the next number, with their rounds behind it.

## Main definitions

* `firstSuccess` — the position of the first attempt that succeeds.
* `attempt` — an attempt as it is written down; `rounds` — failed attempts
  with their pauses.

## Main results

* `attempts_eq_from` — the loop after failed attempts.
* `attempts_of_stop`, `attempts_of_all_fail` — how it ends.
* `attempts_exact` — the course of the attempts.
-/

namespace ProductCatalog.Database

section

variable {α : Type} (outcome : Nat → Except ConnectFault α) (limit : UInt32) (delay : Nat)

/-! ## What an attempt leads to -/

/-- An attempt succeeds. -/
def Succeeds (result : Except ConnectFault α) : Prop := ∃ a, result = .ok a

/-- The position of the first attempt that succeeds; infinite if none does. -/
noncomputable def firstSuccess : ℕ∞ := ⨅ n ∈ {n : Nat | 0 < n ∧ Succeeds (outcome n)}, (n : ℕ∞)

/-- The fault with which an attempt fails. -/
def faultOf : Except ConnectFault α → Option ConnectFault
  | .ok _ => none
  | .error fault => some fault

/-- The ending that the last attempt leads to. -/
def Ending.ofLast : Except ConnectFault α → Ending α
  | .ok a => .connected a
  | .error fault => .failed fault

/-- The attempt at a position. -/
def attempt (n : Nat) : Step := .attempt (UInt32.ofNat n) (faultOf (outcome n))

/-- The first attempts, each with a pause behind it. -/
def rounds (m : Nat) : List Step :=
  (List.range' 1 m).flatMap fun n => [attempt outcome n, .pause delay]

variable {outcome limit delay} {m n : Nat}

theorem exists_fault_of_not_succeeds {result : Except ConnectFault α} (h : ¬Succeeds result) :
    ∃ fault, result = .error fault := by
  cases result with
  | ok a => exact absurd ⟨a, rfl⟩ h
  | error fault => exact ⟨fault, rfl⟩

/-- The first success is where none comes before it. -/
theorem firstSuccess_eq (hpos : 0 < n) (h : Succeeds (outcome n))
    (hfail : ∀ i, 0 < i → i < n → ¬Succeeds (outcome i)) : firstSuccess outcome = n := by
  refine le_antisymm (iInf₂_le n ⟨hpos, h⟩) (le_iInf₂ fun i hi => ?_)
  exact Nat.cast_le.2 (Nat.le_of_not_lt fun hlt => hfail i hi.1 hlt hi.2)

/-- There is no success among the first attempts if none of them succeeds. -/
theorem lt_firstSuccess (hfail : ∀ i, 0 < i → i ≤ n → ¬Succeeds (outcome i)) :
    ((n + 1 : Nat) : ℕ∞) ≤ firstSuccess outcome :=
  le_iInf₂ fun i hi => Nat.cast_le.2 (Nat.lt_of_not_le fun hle => hfail i hi.1 hle hi.2)

/-- The attempts stop at the first success, or where the limit ends. -/
theorem exists_stop (outcome : Nat → Except ConnectFault α) (r : Nat) :
    ∃ n : Nat, (n : ℕ∞) = min (firstSuccess outcome) (r + 1) ∧ 0 < n ∧ n ≤ r + 1 ∧
      (∀ i, 0 < i → i < n → ¬Succeeds (outcome i)) ∧ (Succeeds (outcome n) ∨ n = r + 1) := by
  classical
  by_cases hSome : ∃ n, 0 < n ∧ n ≤ r + 1 ∧ Succeeds (outcome n)
  · obtain ⟨hpos, hle, hsucceeds⟩ := Nat.find_spec hSome
    have hfail : ∀ i, 0 < i → i < Nat.find hSome → ¬Succeeds (outcome i) := fun i hi hlt h =>
      Nat.find_min hSome hlt ⟨hi, by omega, h⟩
    refine ⟨Nat.find hSome, ?_, hpos, hle, hfail, .inl hsucceeds⟩
    rw [firstSuccess_eq hpos hsucceeds hfail, min_eq_left]
    exact_mod_cast hle
  · have hfail : ∀ i, 0 < i → i ≤ r + 1 → ¬Succeeds (outcome i) := fun i hi hle h =>
      hSome ⟨i, hi, hle, h⟩
    refine ⟨r + 1, ?_, by omega, le_rfl, fun i hi hlt => hfail i hi (by omega), .inr rfl⟩
    rw [min_eq_right]
    · exact_mod_cast rfl
    · exact_mod_cast lt_firstSuccess fun i hi hle => hfail i hi (by omega)

/-! ## The loop -/

theorem rounds_succ :
    rounds outcome delay (m + 1) =
      rounds outcome delay m ++ [attempt outcome (m + 1), .pause delay] := by
  rw [rounds, rounds, List.range'_1_concat, List.flatMap_append, List.flatMap_singleton,
    Nat.add_comm 1 m]

/-- What is put between the elements of a list stands behind each of them but the last. -/
theorem intersperse_concat {β : Type} (separator last : β) (xs : List β) :
    (xs ++ [last]).intersperse separator = xs.flatMap (fun x => [x, separator]) ++ [last] := by
  induction xs with
  | nil => rfl
  | cons x xs ih =>
    obtain ⟨y, ys, hRest⟩ :=
      List.exists_cons_of_ne_nil (List.append_ne_nil_of_right_ne_nil xs (List.cons_ne_nil last []))
    rw [List.cons_append, hRest, List.intersperse_cons_cons, ← hRest, ih]
    rfl

/-- Rounds and a last attempt are the attempts with the pauses put between them. -/
theorem rounds_append_attempt :
    rounds outcome delay m ++ [attempt outcome (m + 1)] =
      ((List.range' 1 (m + 1)).map (attempt outcome)).intersperse (.pause delay) := by
  rw [List.range'_1_concat, List.map_append, List.map_singleton, intersperse_concat,
    List.flatMap_map, Nat.add_comm 1 m]
  rfl

/-- A number of 32 bits is the position that it counts. -/
theorem toNat_number (h : n < 2 ^ 32) : (UInt32.ofNat n).toNat = n :=
  UInt32.toNat_ofNat_of_lt' h

/-- After failed attempts the loop stands at the next number, with their rounds behind it. -/
theorem attempts_eq_from (hfail : ∀ i, 0 < i → i ≤ m → ¬Succeeds (outcome i))
    (hlimit : m ≤ limit.toNat) (hcount : m < 2 ^ 32 - 1) :
    attempts (fun number => outcome number.toNat) limit delay =
      attemptsFrom (fun number => outcome number.toNat) limit delay (UInt32.ofNat (m + 1))
        (rounds outcome delay m).reverse := by
  induction m with
  | zero => rfl
  | succ m ih =>
    rw [ih (fun i hi hle => hfail i hi (by omega)) (by omega) (by omega), attemptsFrom]
    obtain ⟨fault, hFault⟩ := exists_fault_of_not_succeeds (hfail (m + 1) (by omega) le_rfl)
    have hNumber : (UInt32.ofNat (m + 1)).toNat = m + 1 := toNat_number (by omega)
    have hLe : UInt32.ofNat (m + 1) ≤ limit := by
      rw [UInt32.le_iff_toNat_le, hNumber]
      exact hlimit
    have hNotLast : UInt32.ofNat (m + 1) ≠ lastNumber := by
      intro hLast
      have := congrArg UInt32.toNat hLast
      rw [hNumber] at this
      have : lastNumber.toNat = 2 ^ 32 - 1 := rfl
      omega
    have hNext : UInt32.ofNat (m + 1) + 1 = UInt32.ofNat (m + 1 + 1) := by
      rw [UInt32.ofNat_add (m + 1) 1]
      rfl
    simp only [hNumber, hFault, if_pos hLe, dif_neg hNotLast, hNext]
    rw [rounds_succ, List.reverse_append, attempt, hFault]
    rfl

/-- The attempts end with one that succeeds or that the limit does not repeat. -/
theorem attempts_of_stop (hfail : ∀ i, 0 < i → i ≤ m → ¬Succeeds (outcome i))
    (hlimit : m ≤ limit.toNat) (hcount : m < 2 ^ 32 - 1)
    (hstop : Succeeds (outcome (m + 1)) ∨ m = limit.toNat) :
    attempts (fun number => outcome number.toNat) limit delay =
      ⟨((List.range' 1 (m + 1)).map (attempt outcome)).intersperse (.pause delay),
        .ofLast (outcome (m + 1))⟩ := by
  have hNumber : (UInt32.ofNat (m + 1)).toNat = m + 1 := toNat_number (by omega)
  rw [attempts_eq_from hfail hlimit hcount, attemptsFrom, ← rounds_append_attempt]
  simp only [hNumber, attempt]
  cases hResult : outcome (m + 1) with
  | ok a => simp only [faultOf, Ending.ofLast, List.reverse_cons, List.reverse_reverse]
  | error fault =>
    have hOver : ¬UInt32.ofNat (m + 1) ≤ limit := by
      have hLimit : m = limit.toNat := by
        refine hstop.resolve_left ?_
        rintro ⟨a, ha⟩
        rw [ha] at hResult
        cases hResult
      rw [UInt32.le_iff_toNat_le, hNumber]
      omega
    simp only [faultOf, Ending.ofLast, if_neg hOver, List.reverse_cons, List.reverse_reverse]

/-- Under the greatest limit the count ends before the attempts do, if all that it counts fail. -/
theorem attempts_of_all_fail (hfail : ∀ i, 0 < i → i < 2 ^ 32 → ¬Succeeds (outcome i)) :
    attempts (fun number => outcome number.toNat) lastNumber delay =
      ⟨rounds outcome delay (2 ^ 32 - 1), .brokenOff⟩ := by
  obtain ⟨m, hm⟩ : ∃ m, m + 1 = 2 ^ 32 - 1 := ⟨2 ^ 32 - 2, rfl⟩
  have hLast : UInt32.ofNat (m + 1) = lastNumber := by rw [hm]; rfl
  have hNumber : lastNumber.toNat = m + 1 := hm.symm
  obtain ⟨fault, hFault⟩ := exists_fault_of_not_succeeds (hfail (m + 1) (by omega) (by omega))
  rw [attempts_eq_from (m := m) (fun i hi hle => hfail i hi (by omega)) (by omega) (by omega),
    attemptsFrom, hLast]
  simp only [hNumber, hFault, UInt32.le_refl, if_true, dif_pos]
  rw [← hm, rounds_succ, attempt, hFault, hLast, List.reverse_cons, List.reverse_cons,
    List.reverse_reverse, List.append_assoc]
  rfl

/-- As many attempts are made as it takes to succeed, and at most one more than the limit on
repetitions, with exactly one pause between any two; the last of them decides how the course ends.
Only if the greatest limit is reached without a success, the attempt behind the last number is
missing, and the attempts break off after a pause. -/
theorem attempts_exact (outcome : Nat → Except ConnectFault α) (limit : UInt32) (delay : Nat) :
    ∃ n : Nat, (n : ℕ∞) = min (firstSuccess outcome) (limit.toNat + 1) ∧ n ≤ 2 ^ 32 ∧
      (n < 2 ^ 32 →
        attempts (fun number => outcome number.toNat) limit delay =
          ⟨((List.range' 1 n).map (attempt outcome)).intersperse (.pause delay),
            .ofLast (outcome n)⟩) ∧
      (n = 2 ^ 32 →
        attempts (fun number => outcome number.toNat) limit delay =
          ⟨rounds outcome delay (2 ^ 32 - 1), .brokenOff⟩) := by
  obtain ⟨n, hMin, hpos, hle, hfail, hstop⟩ := exists_stop outcome limit.toNat
  have hBound := limit.toNat_lt
  obtain ⟨m, rfl⟩ : ∃ m, n = m + 1 := ⟨n - 1, by omega⟩
  refine ⟨m + 1, hMin, by omega, fun hCount => ?_, fun hOver => ?_⟩
  · exact attempts_of_stop (fun i hi hle => hfail i hi (by omega)) (by omega) (by omega)
      (hstop.imp_right fun h => by omega)
  · have hLimit : limit = lastNumber := UInt32.toNat_inj.1 <| by
      have hLast : lastNumber.toNat = 2 ^ 32 - 1 := rfl
      omega
    rw [hLimit]
    exact attempts_of_all_fail fun i hi hlt => hfail i hi (by omega)

end

/-- Two attempts fail, the third one succeeds. -/
theorem attempts_exact_of_third :
    let outcome (n : Nat) : Except ConnectFault Unit := if n < 3 then .error .timedOut else .ok ()
    attempts (fun number => outcome number.toNat) 5 2000 =
      ⟨[.attempt 1 (some .timedOut), .pause 2000, .attempt 2 (some .timedOut), .pause 2000,
        .attempt 3 none], .connected ()⟩ := by
  intro outcome
  obtain ⟨n, hMin, -, hCourse, -⟩ := attempts_exact outcome 5 2000
  have hFirst : firstSuccess outcome = (3 : Nat) := by
    refine firstSuccess_eq (by decide) ⟨(), rfl⟩ fun i _ hi => ?_
    rintro ⟨a, ha⟩
    rw [show outcome i = .error .timedOut from if_pos hi] at ha
    cases ha
  have hThree : n = 3 := by
    rw [hFirst, min_eq_left] at hMin
    · exact_mod_cast hMin
    · exact_mod_cast (by decide : 3 ≤ (5 : UInt32).toNat + 1)
  subst hThree
  exact hCourse (by decide)

/-- Under the greatest limit, attempts that all fail do not end with the fault of the last one. -/
theorem attempts_break_off :
    let dial : UInt32 → Except ConnectFault Unit := fun _ => .error .timedOut
    (attempts dial lastNumber 0).ending = .brokenOff ∧
      (attempts dial lastNumber 0).ending ≠ .failed .timedOut := by
  have hfail : ∀ i, 0 < i → i < 2 ^ 32 →
      ¬Succeeds ((fun _ => .error .timedOut : Nat → Except ConnectFault Unit) i) := by
    rintro i - - ⟨a, ha⟩
    cases ha
  intro dial
  have hCourse : attempts dial lastNumber 0 = ⟨_, .brokenOff⟩ := attempts_of_all_fail hfail
  rw [hCourse]
  exact ⟨rfl, nofun⟩

end ProductCatalog.Database
