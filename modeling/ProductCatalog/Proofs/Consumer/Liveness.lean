import ProductCatalog.Proofs.Consumer.Seats

/-!
# No run gets stuck

A loop that has no turn waits for something that will give it one: for time
to pass, as long as nobody has asked it to stop, or for its tasks.  Whatever
is done to a consumer keeps it so.

## Main results

* `Lively` — the loop has a turn or something to wait for.
* `send_record`, `publish_record` — what a message that arrives changes.
* `Runs.lively` — every run is lively.
-/

namespace ProductCatalog.Consumer

/-! ## Somebody has a turn -/

/-- Whether the loop waits for time to pass. -/
def Phase.sleeps : Phase → Bool
  | .receiving _ | .pausing _ => true
  | .idle | .starting | .polling | .draining | .stopped => false

/-- A loop that has come so far has something to wait for. -/
def Phase.Rests (asked : Bool) (tasks : List Task) : Phase → Prop
  | .idle | .stopped => True
  | .receiving _ | .pausing _ => asked = false
  | .draining => tasks ≠ []
  | .starting | .polling => False

/-- The loop has a turn or something to wait for. -/
def Lively (c : Consumer) : Prop := .loop ∈ c.turns ∨ c.phase.Rests c.stopAsked c.tasks

namespace Phase.Rests

variable {phase : Phase} {asked : Bool} {tasks tasks' : List Task}

theorem of_tasks (h : phase.Rests asked tasks)
    (htasks : phase = .draining → tasks ≠ [] → tasks' ≠ []) : phase.Rests asked tasks' := by
  cases phase with
  | draining => exact htasks rfl h
  | _ => exact h

/-- Whoever is asked to stop has nothing to wait for but the tasks. -/
theorem of_asked (h : phase.Rests asked tasks) :
    phase.sleeps = true ∨ phase.Rests true tasks := by
  cases phase with
  | receiving poll | pausing wakeAt => exact .inl rfl
  | _ => exact .inr h

end Phase.Rests

theorem Fresh.lively {c : Consumer} (h : c.Fresh) : Lively c := by
  rw [Lively, h.phase]
  exact .inr trivial

section

variable (c : Consumer)

theorem mem_wakeLoop : .loop ∈ c.wakeLoop.turns := by
  rw [wakeLoop_record]
  by_cases hloop : .loop ∈ c.turns <;> simp [hloop]

theorem subset_wakeLoop : c.turns ⊆ c.wakeLoop.turns := by
  rw [wakeLoop_record]
  by_cases hloop : .loop ∈ c.turns <;> simp [hloop]

theorem rouse_eq : c.rouse = if c.phase.sleeps then c.wakeLoop else c := by
  unfold rouse
  cases c.phase <;> rfl

/-- To rouse the loop is to give it a turn if it sleeps. -/
theorem rouse_record :
    ∃ turns, c.turns ⊆ turns ∧ (c.phase.sleeps = true → .loop ∈ turns) ∧
      c.rouse = { c with turns := turns } := by
  rw [rouse_eq]
  by_cases hsleeps : c.phase.sleeps = true
  · refine ⟨c.wakeLoop.turns, c.subset_wakeLoop, fun _ => c.mem_wakeLoop, ?_⟩
    rw [if_pos hsleeps, wakeLoop_record]
  · exact ⟨c.turns, List.Subset.refl _, fun h => absurd h hsleeps, if_neg hsleeps⟩

/-- A message and its announcement give out turns at most. -/
theorem send_record (body : Text.Bytes) :
    ∃ q turns, c.turns ⊆ turns ∧ (c.send body).1 = { c with queue := q, turns := turns } := by
  have hannounced : ∀ c : Consumer, ∃ turns, c.turns ⊆ turns ∧
      c.announce = { c with turns := turns } := by
    intro c
    unfold announce
    split
    · exact ⟨c.wakeLoop.turns, c.subset_wakeLoop, by rw [wakeLoop_record]⟩
    · exact ⟨c.turns, List.Subset.refl _, rfl⟩
  rcases c.queue.send_cases body with hsend | ⟨faults, error, hsend⟩
  · obtain ⟨turns, hturns, hrecord⟩ := hannounced { c with queue := c.queue.push body }
    refine ⟨c.queue.push body, turns, hturns, ?_⟩
    simp only [send, hsend]
    exact hrecord
  · refine ⟨{ c.queue with faults := faults }, c.turns, List.Subset.refl _, ?_⟩
    simp only [send, hsend]

theorem publish_record (event : LifecycleEvent) :
    ∃ q turns news, c.turns ⊆ turns ∧ (c.publish event).1 =
      { c with queue := q, turns := turns, history := c.history ++ news } := by
  obtain ⟨q, turns, hturns, hrecord⟩ := c.send_record event.encode
  unfold publish
  split
  · rename_i c' hsend
    rw [hsend] at hrecord
    simp only at hrecord
    rw [hrecord]
    exact ⟨q, turns, [(c.now, .published event)], hturns, rfl⟩
  · rename_i c' error hsend
    rw [hsend] at hrecord
    simp only at hrecord
    rw [hrecord]
    exact ⟨q, turns, [], hturns, by rw [List.append_nil]⟩

end

namespace Lively

variable {c : Consumer}

/-- More turns do no harm. -/
theorem given (h : Lively c) (q : Queue) {turns : List Party} (hturns : c.turns ⊆ turns)
    (history : List (Nat × Incident)) :
    Lively { c with queue := q, turns := turns, history := history } :=
  h.imp (hturns ·) id

/-- A loop that has not been asked to stop goes on after a look at the queue, or waits. -/
theorem settle (hasked : c.stopAsked = false) (looked : Queue × Queue.PollState) :
    Lively (c.settle looked) := by
  obtain ⟨q, state⟩ := looked
  cases state with
  | waiting poll => exact .inr hasked
  | finished result =>
      cases result with
      | ok batch => exact .inl List.mem_cons_self
      | error error =>
          simp only [Consumer.settle]
          split
          · exact .inl List.mem_cons_self
          · exact .inr hasked

theorem loopTurn (c : Consumer) : Lively c.loopTurn := by
  have hasked : c.countEnded.stopAsked = c.stopAsked := by rw [countEnded_record]
  have hphase : c.countEnded.phase = c.phase := by rw [countEnded_record]
  unfold Consumer.loopTurn
  cases hstate : c.phase with
  | idle | stopped =>
      right
      rw [hstate]
      trivial
  | starting => exact .inl List.mem_cons_self
  | polling =>
      simp only
      split
      · exact .inl List.mem_cons_self
      · rename_i hgoes
        rw [beginReceive]
        exact settle (c := c.countEnded.note .receiveBegan) (Bool.eq_false_iff.2 hgoes) _
  | receiving poll =>
      simp only
      split
      · exact .inl List.mem_cons_self
      · rename_i hgoes
        exact settle (Bool.eq_false_iff.2 hgoes) _
  | pausing wakeAt =>
      simp only
      split <;> exact .inl List.mem_cons_self
  | draining =>
      simp only
      split
      · exact .inr trivial
      · rename_i hleft
        right
        rw [hphase, hstate]
        exact fun hnone => hleft (List.isEmpty_iff.2 hnone)

/-- A task that waits is still there, and one that ends wakes a loop that waits for it. -/
theorem stint (h : Lively c) (task : Task) (stint : Stint) :
    Lively
      ({ c with turns := c.turns.erase (.task task.delivery.number) }.perform task stint) := by
  have hloop : .loop ∈ c.turns → .loop ∈ c.turns.erase (.task task.delivery.number) :=
    (List.mem_erase_of_ne (by simp)).2
  obtain ⟨notes, q, calls, service, deletions, upshot⟩ := stint
  cases upshot with
  | waits state =>
      rw [perform_waits]
      exact h.imp hloop fun hrests => hrests.of_tasks fun _ => mt List.map_eq_nil_iff.1
  | ended ending =>
      rw [perform_over]
      by_cases hphase : c.phase = .draining
      · left
        simp only [hphase, true_and]
        split <;> simp_all
      · refine h.imp (fun hturn => ?_) fun hrests => ?_
        · simp only [hphase, false_and, if_false]
          exact hloop hturn
        · exact hrests.of_tasks fun hdraining => absurd hdraining hphase

theorem move {c' : Consumer} (h : Lively c) (hseated : Seated c) (hmove : Move c c') :
    Lively c' := by
  cases hmove with
  | turn party hparty =>
      cases party with
      | loop => exact loopTurn _
      | task n =>
          obtain ⟨task, -, rfl, stint, -, hturn⟩ := hseated.taskTurn hparty
          rw [turnOf, hturn]
          exact h.stint task stint
  | pass instant => exact h.given c.queue (List.subset_append_left ..) c.history
  | start =>
      unfold Consumer.start
      split
      · exact .inl (mem_wakeLoop _)
      · exact h
  | stop =>
      obtain ⟨turns, hturns, hroused, hrecord⟩ := rouse_record { c with stopAsked := true }
      rw [stop, hrecord]
      rcases h with hloop | hrests
      · exact .inl (hturns hloop)
      · exact hrests.of_asked.imp hroused id
  | send body =>
      obtain ⟨q, turns, hturns, hrecord⟩ := c.send_record body
      rw [hrecord]
      exact h.given q hturns c.history
  | publish event =>
      obtain ⟨q, turns, news, hturns, hrecord⟩ := c.publish_record event
      rw [hrecord]
      exact h.given q hturns _
  | fail faults => exact h.given _ (List.Subset.refl _) c.history
  | reorder leases => exact h.given _ (List.Subset.refl _) c.history

end Lively

variable {c₀ c : Consumer}

/-- No run gets stuck. -/
theorem Runs.lively (h : Runs c₀ c) (hfresh : c₀.Fresh) (hqueue : c₀.queue.Sound) : Lively c := by
  induction h with
  | refl => exact hfresh.lively
  | move hruns hmove ih => exact ih.move (hruns.seated hfresh hqueue) hmove

end ProductCatalog.Consumer
