import ProductCatalog.Consumer.Run

/-!
# Everything that a consumer can do

A run goes on by *moves*: a party that can go on takes its turn, time
passes up to the next alarm at most, or something is done from outside.
Which of the parties that can go on takes its turn first is left open, and
so is the instant of everything done from outside.

## Main results

* `Consumer.move_of_step` — what a consumer does next by itself is a move.
-/

namespace ProductCatalog.Consumer

/-- A consumer of which nothing has happened yet. -/
structure Fresh (c : Consumer) : Prop where
  phase : c.phase = .idle
  tasks : c.tasks = []
  ended : c.ended = []
  report : c.report = {}
  turns : c.turns = []
  history : c.history = []

/-- One move. -/
inductive Move (c : Consumer) : Consumer → Prop
  /-- A party that can go on takes its turn. -/
  | turn (party : Party) (h : party ∈ c.turns) :
      Move c ({ c with turns := c.turns.erase party }.turnOf party)
  /-- Time passes, and no alarm is passed over. -/
  | pass (instant : Nat) (h : ∀ alarm ∈ c.pending, instant ≤ alarm.1) : Move c (c.ring instant)
  | start : Move c c.start
  /-- The run is asked to stop, or whoever could ask is gone. -/
  | stop : Move c c.stop
  | send (body : Text.Bytes) : Move c (c.send body).1
  | publish (event : LifecycleEvent) : Move c (c.publish event).1
  /-- The queue is told how many of its next operations shall fail. -/
  | fail (faults : Queue.Faults) : Move c { c with queue := { c.queue with faults := faults } }
  /-- Leases are kept in no order. -/
  | reorder (leases : List Queue.Lease) (h : leases.Perm c.queue.leased) :
      Move c { c with queue := { c.queue with leased := leases } }

/-- What a consumer can come to by moves. -/
inductive Runs (c₀ : Consumer) : Consumer → Prop
  | refl : Runs c₀ c₀
  | move {c c'} (h : Runs c₀ c) (hmove : Move c c') : Runs c₀ c'

/-- The next alarm passes over none. -/
theorem le_of_nextAlarm {c : Consumer} {instant : Nat} (h : c.nextAlarm = some instant) :
    ∀ alarm ∈ c.pending, instant ≤ alarm.1 := by
  intro alarm halarm
  rw [nextAlarm, List.min?_eq_some_iff] at h
  exact h.2 _ (List.mem_map_of_mem halarm)

/-- The next alarm is one of them. -/
theorem mem_of_nextAlarm {c : Consumer} {instant : Nat} (h : c.nextAlarm = some instant) :
    ∃ alarm ∈ c.pending, alarm.1 = instant := by
  rw [nextAlarm, List.min?_eq_some_iff] at h
  exact List.mem_map.1 h.1

/-- Where there is an alarm there is a next one. -/
theorem exists_nextAlarm {c : Consumer} {alarm : Nat × Nat × Party} (h : alarm ∈ c.pending) :
    ∃ instant ≤ alarm.1, c.nextAlarm = some instant := by
  have hmem : alarm.1 ∈ c.pending.map (·.1) := List.mem_map_of_mem h
  obtain ⟨instant, hnext⟩ : ∃ instant, c.nextAlarm = some instant :=
    Option.isSome_iff_exists.1 (List.isSome_min?_of_mem hmem)
  exact ⟨instant, le_of_nextAlarm hnext alarm h, hnext⟩

/-- A party that has the next turn takes it. -/
theorem step_of_turns {c : Consumer} {party : Party} {turns : List Party}
    (h : c.turns = party :: turns) (limit : Nat) :
    c.step? limit = some ({ c with turns := c.turns.erase party }.turnOf party) := by
  unfold step?
  rw [h]
  simp only [List.erase_cons_head]

/-- If nobody has a turn, time passes up to the next alarm. -/
theorem ring_of_step {c c' : Consumer} {limit : Nat} (hidle : c.turns = [])
    (h : c.step? limit = some c') :
    ∃ instant, c.nextAlarm = some instant ∧ instant < limit ∧ c' = c.ring instant := by
  unfold step? at h
  rw [hidle] at h
  simp only at h
  split at h
  · next instant hnext =>
      split at h
      · next hlt => exact ⟨instant, hnext, hlt, (Option.some.inj h).symm⟩
      · cases h
  · cases h

/-- What happens next is a move. -/
theorem move_of_step {c c' : Consumer} {limit : Nat} (h : c.step? limit = some c') :
    Move c c' := by
  cases hturns : c.turns with
  | cons party turns =>
      rw [step_of_turns hturns] at h
      obtain rfl := Option.some.inj h
      exact .turn party (hturns ▸ List.mem_cons_self)
  | nil =>
      obtain ⟨instant, halarm, -, rfl⟩ := ring_of_step hturns h
      exact .pass instant (le_of_nextAlarm halarm)

/-- If nothing is left to do before an instant, no alarm rings before it. -/
theorem le_of_step_none {c : Consumer} {limit : Nat} (h : c.step? limit = none) :
    ∀ alarm ∈ c.pending, limit ≤ alarm.1 := by
  intro alarm halarm
  obtain ⟨instant, hle, hnext⟩ := exists_nextAlarm halarm
  unfold step? at h
  split at h
  · cases h
  · rw [hnext] at h
    simp only at h
    split at h
    · cases h
    · omega

namespace Runs

variable {c₀ c : Consumer}

theorem trans {c' : Consumer} (h : Runs c₀ c) (h' : Runs c c') : Runs c₀ c' := by
  induction h' with
  | refl => exact h
  | move _ hmove ih => exact ih.move hmove

end Runs

end ProductCatalog.Consumer
