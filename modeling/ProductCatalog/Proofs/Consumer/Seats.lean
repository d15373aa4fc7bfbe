import ProductCatalog.Proofs.Consumer.Books
import ProductCatalog.Proofs.Consumer.Stints

/-!
# Who has a turn

A consumer is *seated* if every turn that has been given out belongs to a
party that can use it: no party has two, and a task has one only if it is
ready or its alarm has rung.  No alarm is ever passed over, so that a task
that waits goes on at the very instant that it has set.

## Main results

* `Seated.aside`, `Seated.stint`, `Seated.ring` — what keeps a consumer seated.
* `Seated.moved` — every move is a stint of a task that has its turn, is aside
  from the running tasks, or lets time pass.
* `Seated.on_time` — a task has its turn at the instant of its alarm.
* `Runs.seated` — every run leaves a consumer seated.
-/

namespace ProductCatalog.Consumer

open Queue (Delivery)

/-- Turns are with those who can go on. -/
structure Seated (c : Consumer) : Prop where
  nodup : c.turns.Nodup
  due : ∀ n, .task n ∈ c.turns → ∃ task ∈ c.tasks, task.delivery.number = n ∧
    ∀ wakeAt, task.wakeAt? = some wakeAt → wakeAt ≤ c.now
  ready : ∀ task ∈ c.tasks, task.state = .ready → .task task.delivery.number ∈ c.turns

/-- What a move comes to, seen from the running tasks. -/
inductive Moved (c : Consumer) : Consumer → Prop
  | aside {batch c'} (h : Aside c batch c') : Moved c c'
  | stint {task stint} (htask : task ∈ c.tasks) (hturn : .task task.delivery.number ∈ c.turns)
      (h : Does c task stint) :
      Moved c ({ c with turns := c.turns.erase (.task task.delivery.number) }.perform task stint)
  | pass (instant : Nat) (h : ∀ alarm ∈ c.pending, instant ≤ alarm.1) : Moved c (c.ring instant)

theorem Fresh.seated {c : Consumer} (h : c.Fresh) : Seated c where
  nodup := by simp [h.turns]
  due := by simp [h.turns]
  ready := by simp [h.tasks]

variable {c₀ c : Consumer} {task : Task}

/-- Every waiting task has one alarm. -/
theorem mem_pending {n instant place : Nat} :
    (instant, place, .task n) ∈ c.pending ↔
      ∃ task ∈ c.tasks, task.delivery.number = n ∧ task.alarm = place ∧
        task.wakeAt? = some instant := by
  have hloop : (instant, place, .task n) ∉ c.loopAlarm := by
    unfold loopAlarm
    split <;> simp
  simp only [pending, List.mem_append, hloop, false_or, List.mem_filterMap, Option.map_eq_some_iff,
    Prod.mk.injEq, Party.task.injEq]
  constructor
  · rintro ⟨task, htask, wakeAt, hwake, rfl, rfl, rfl⟩
    exact ⟨task, htask, rfl, rfl, hwake⟩
  · rintro ⟨task, htask, rfl, rfl, hwake⟩
    exact ⟨task, htask, instant, hwake, rfl, rfl, rfl⟩

/-- An instant gives turns to those whose alarms ring. -/
theorem mem_turns_ring {instant : Nat} {party : Party} :
    party ∈ (c.ring instant).turns ↔
      party ∈ c.turns ∨ ∃ alarm ∈ c.pending, alarm.1 ≤ instant ∧ alarm.2.2 = party := by
  by_cases hturn : party ∈ c.turns
  · exact iff_of_true (List.mem_append_left _ hturn) (.inl hturn)
  · simp only [ring, List.mem_append, List.mem_filter, List.mem_map, List.mem_mergeSort,
      decide_eq_true_eq, hturn, false_or, and_assoc]
    simp [hturn]

/-- No party has two alarms. -/
theorem pending_nodup (hnumbers : (c.tasks.map (·.delivery.number)).Nodup) :
    (c.pending.map (·.2.2)).Nodup := by
  have htasks : (c.tasks.filterMap fun task =>
      task.wakeAt?.map fun wakeAt => (wakeAt, task.alarm, Party.task task.delivery.number)).map
        (·.2.2) =
      (c.tasks.filter (·.wakeAt?.isSome)).map fun task => .task task.delivery.number := by
    rw [List.map_filterMap, ← List.filterMap_eq_map, List.filterMap_filter]
    refine List.filterMap_congr fun task _ => ?_
    cases task.wakeAt? <;> rfl
  have hfiltered : ((c.tasks.filter (·.wakeAt?.isSome)).map
      fun task => Party.task task.delivery.number).Nodup := by
    refine List.Nodup.of_map (fun | .task n => n | .loop => 0) ?_
    rw [List.map_map]
    exact hnumbers.sublist (List.filter_sublist.map _)
  rw [pending, List.map_append, htasks, List.nodup_append]
  refine ⟨?_, hfiltered, ?_⟩
  · unfold loopAlarm
    split <;> simp
  · intro party hparty other hother
    obtain ⟨task, -, rfl⟩ := List.mem_map.1 hother
    unfold loopAlarm at hparty
    split at hparty <;> simp_all

/-- The loop is woken for one turn. -/
theorem nodup_woken {turns : List Party} {wakes : Prop} [Decidable wakes] (h : turns.Nodup) :
    (if wakes ∧ .loop ∉ turns then turns ++ [.loop] else turns).Nodup := by
  split
  · rename_i hwoken
    refine List.nodup_append.2 ⟨h, List.nodup_singleton _, fun party hparty other hother heq => ?_⟩
    rw [heq, List.mem_singleton.1 hother] at hparty
    exact hwoken.2 hparty
  · exact h

/-- Waking the loop gives no task a turn. -/
theorem task_mem_woken {turns : List Party} {wakes : Prop} [Decidable wakes] {n : Nat} :
    .task n ∈ (if wakes ∧ .loop ∉ turns then turns ++ [.loop] else turns) ↔ .task n ∈ turns := by
  split <;> simp

namespace Seated

/-- A task that begins has its turn, and no other task is touched. -/
theorem aside {c' : Consumer} {batch : List Delivery} (h : Seated c)
    (hnumbers : (c'.tasks.map (·.delivery.number)).Nodup) (haside : Aside c batch c') :
    Seated c' := by
  have hsplit : (c'.tasks.map (·.delivery.number)) =
      c.tasks.map (·.delivery.number) ++ batch.map (·.number) := by
    rw [haside.tasks, List.map_append, List.map_map]
    rfl
  rw [hsplit, List.nodup_append] at hnumbers
  obtain ⟨-, hbatch, hdisjoint⟩ := hnumbers
  have hold : ∀ n, .task n ∈ c.turns → n ∉ batch.map (·.number) := by
    intro n hturn hmem
    obtain ⟨task, htask, hnumber, -⟩ := h.due n hturn
    exact hdisjoint n (hnumber ▸ List.mem_map_of_mem htask) n hmem rfl
  have hmem : ∀ n, .task n ∈ c'.turns ↔ .task n ∈ c.turns ∨ n ∈ batch.map (·.number) := by
    intro n
    rw [← List.count_pos_iff, haside.turns n, ← List.count_pos_iff, ← List.count_pos_iff]
    omega
  refine ⟨?_, ?_, ?_⟩
  · rw [List.nodup_iff_count_le_one]
    intro party
    cases party with
    | loop =>
        have honce := List.nodup_iff_count_le_one.1 h.nodup .loop
        have hloop := haside.loop
        omega
    | task n =>
        rw [haside.turns n]
        have honce := List.nodup_iff_count_le_one.1 h.nodup (.task n)
        have hbegun := List.nodup_iff_count_le_one.1 hbatch n
        by_cases hturn : .task n ∈ c.turns
        · rw [List.count_eq_zero_of_not_mem (hold n hturn)]
          exact honce
        · rw [List.count_eq_zero_of_not_mem hturn, Nat.zero_add]
          exact hbegun
  · intro n hturn
    rcases (hmem n).1 hturn with hturn | hbegun
    · obtain ⟨task, htask, hnumber, hwake⟩ := h.due n hturn
      rw [haside.now, haside.tasks]
      exact ⟨task, List.mem_append_left _ htask, hnumber, hwake⟩
    · obtain ⟨d, hd, rfl⟩ := List.mem_map.1 hbegun
      rw [haside.tasks]
      exact ⟨⟨d, .ready, 0⟩, List.mem_append_right _ (List.mem_map_of_mem hd), rfl, nofun⟩
  · intro task htask hready
    rw [hmem]
    rw [haside.tasks] at htask
    rcases List.mem_append.1 htask with hrunning | hbegun
    · exact .inl (h.ready task hrunning hready)
    · obtain ⟨d, hd, rfl⟩ := List.mem_map.1 hbegun
      exact .inr (List.mem_map_of_mem hd)

/-- A task that has taken its turn has none until its alarm rings. -/
theorem stint {stint : Stint} (h : Seated c) (hdoes : Does c task stint) :
    Seated
      ({ c with turns := c.turns.erase (.task task.delivery.number) }.perform task stint) := by
  have hmem : ∀ n, .task n ∈ c.turns.erase (.task task.delivery.number) ↔
      n ≠ task.delivery.number ∧ .task n ∈ c.turns := by
    intro n
    rw [h.nodup.mem_erase_iff]
    simp
  obtain ⟨notes, q, calls, service, deletions, upshot⟩ := stint
  cases upshot with
  | waits state =>
      rw [perform_waits]
      refine ⟨h.nodup.erase _, ?_, ?_⟩
      · intro n hturn
        obtain ⟨hne, hturn⟩ := (hmem n).1 hturn
        obtain ⟨other, hother, rfl, hwake⟩ := h.due n hturn
        refine ⟨other, List.mem_map.2 ⟨other, hother, if_neg hne⟩, rfl, hwake⟩
      · intro other hother hready
        obtain ⟨before, hbefore, rfl⟩ := List.mem_map.1 hother
        by_cases hnumber : before.delivery.number = task.delivery.number
        · -- the task itself waits for its alarm
          rw [if_pos hnumber] at hready
          have hleft := hdoes.left_lt rfl
          obtain rfl : state = .ready := hready
          exact absurd hleft (Nat.not_lt_of_le task.state.left_le)
        · rw [if_neg hnumber] at hready ⊢
          exact (hmem _).2 ⟨hnumber, h.ready before hbefore hready⟩
  | ended ending =>
      rw [perform_over]
      refine ⟨nodup_woken (h.nodup.erase _), ?_, ?_⟩
      · intro n hturn
        obtain ⟨hne, hturn⟩ := (hmem n).1 (task_mem_woken.1 hturn)
        obtain ⟨other, hother, rfl, hwake⟩ := h.due n hturn
        exact ⟨other, List.mem_filter.2 ⟨hother, bne_iff_ne.2 hne⟩, rfl, hwake⟩
      · intro other hother hready
        obtain ⟨hother, hne⟩ := List.mem_filter.1 hother
        exact task_mem_woken.2 ((hmem _).2 ⟨bne_iff_ne.1 hne, h.ready other hother hready⟩)

/-- Whose alarm rings gets a turn. -/
theorem ring (h : Seated c) (hnumbers : (c.tasks.map (·.delivery.number)).Nodup) (instant : Nat) :
    Seated (c.ring instant) := by
  refine ⟨?_, ?_, ?_⟩
  · have hdue : ((((c.pending.filter (·.1 ≤ instant)).mergeSort
        fun a b => a.2.1 ≤ b.2.1)).map (·.2.2)).Nodup :=
      ((List.mergeSort_perm ..).map _).nodup_iff.2
        ((pending_nodup hnumbers).sublist (List.filter_sublist.map _))
    refine List.nodup_append.2 ⟨h.nodup, hdue.filter _, ?_⟩
    intro party hparty other hother heq
    have hnew := (List.mem_filter.1 hother).2
    rw [← heq] at hnew
    simp [hparty] at hnew
  · intro n hturn
    rcases mem_turns_ring.1 hturn with hold | ⟨⟨instant', place, party⟩, halarm, hle, rfl⟩
    · obtain ⟨task, htask, hnumber, hwake⟩ := h.due n hold
      exact ⟨task, htask, hnumber,
        fun wakeAt hw => Nat.le_trans (hwake wakeAt hw) (Nat.le_max_left ..)⟩
    · obtain ⟨task, htask, hnumber, -, hwake⟩ := mem_pending.1 halarm
      refine ⟨task, htask, hnumber, fun other hother => ?_⟩
      obtain rfl := Option.some.inj (hwake.symm.trans hother)
      exact Nat.le_trans hle (Nat.le_max_right ..)
  · exact fun task htask hready => List.mem_append_left _ (h.ready task htask hready)

/-- A turn of a task is a stint. -/
theorem taskTurn {n : Nat} (h : Seated c) (hparty : .task n ∈ c.turns) :
    ∃ task ∈ c.tasks, task.delivery.number = n ∧ ∃ stint, Does c task stint ∧
      ({ c with turns := c.turns.erase (.task n) }.taskTurn n) =
        { c with turns := c.turns.erase (.task n) }.perform task stint := by
  obtain ⟨task, hfind⟩ : ∃ task, c.tasks.find? (·.delivery.number = n) = some task := by
    obtain ⟨task, htask, hnumber, -⟩ := h.due n hparty
    rw [← Option.isSome_iff_exists, List.find?_isSome]
    exact ⟨task, htask, by simpa using hnumber⟩
  obtain ⟨stint, hdoes, hturn⟩ := taskTurn_stint (c := { c with
    turns := c.turns.erase (.task n) }) hfind
  exact ⟨task, List.mem_of_find?_eq_some hfind, by simpa using List.find?_some hfind, stint,
    hdoes.of_turns, hturn⟩

/-- Every move is a stint, is aside, or lets time pass. -/
theorem moved {c' : Consumer} (h : Seated c) (hmove : Move c c') : Moved c c' := by
  cases hmove with
  | turn party hparty =>
      cases party with
      | loop =>
          obtain ⟨batch, haside⟩ := (Aside.refl { c with turns := c.turns.erase .loop }).loopTurn
            h.nodup.not_mem_erase
          have hturns : ∀ n, (turnOf { c with turns := c.turns.erase .loop } .loop).turns.count
              (.task n) = c.turns.count (.task n) + (batch.map (·.number)).count n := by
            intro n
            have hsame : (c.turns.erase .loop).count (.task n) = c.turns.count (.task n) :=
              List.count_erase_of_ne (by simp)
            rw [← hsame]
            exact haside.turns n
          have hloop : (turnOf { c with turns := c.turns.erase .loop } .loop).turns.count .loop ≤
              max 1 (c.turns.count .loop) := by
            have hfewer : (c.turns.erase .loop).count .loop ≤ c.turns.count .loop :=
              List.erase_sublist.count_le _
            refine Nat.le_trans haside.loop (Nat.max_le.2 ⟨Nat.le_max_left .., ?_⟩)
            exact Nat.le_trans hfewer (Nat.le_max_right ..)
          exact .aside { haside with turns := hturns, loop := hloop }
      | task n =>
          obtain ⟨task, htask, rfl, stint, hdoes, hturn⟩ := h.taskTurn hparty
          rw [turnOf, hturn]
          exact .stint htask hparty hdoes
  | pass instant halarms => exact .pass instant halarms
  | start => exact .aside (Aside.refl c).start
  | stop => exact .aside (Aside.refl c).stop
  | send body => exact .aside ((Aside.refl c).send body)
  | publish event => exact .aside ((Aside.refl c).publish event)
  | fail faults => exact .aside ((Aside.refl c).requeue _)
  | reorder leases => exact .aside ((Aside.refl c).requeue _)

end Seated

/-- No alarm has been passed over. -/
theorem Orderly.now_le (h : Orderly c₀ c) (htask : task ∈ c.tasks) {wakeAt : Nat}
    (hwake : task.wakeAt? = some wakeAt) : c.now ≤ wakeAt := by
  obtain ⟨leg, hfits, -⟩ := h.waiting task htask
  rw [Task.wakeAt?] at hwake
  cases hstate : task.state with
  | ready =>
      rw [hstate] at hwake
      cases hwake
  | handling event outcome instant | deleting ending inTime instant =>
      rw [hstate] at hwake hfits
      obtain rfl := Option.some.inj hwake
      cases hfits
      assumption

/-- A task that has its turn has it at the instant of its alarm. -/
theorem Seated.on_time (h : Seated c) (horderly : Orderly c₀ c) (htask : task ∈ c.tasks)
    (hturn : .task task.delivery.number ∈ c.turns) :
    ∀ wakeAt, task.wakeAt? = some wakeAt → wakeAt = c.now := by
  intro wakeAt hwake
  obtain ⟨other, hother, hnumber, hdue⟩ := h.due _ hturn
  obtain rfl := List.inj_on_of_nodup_map horderly.books.tasks_nodup hother htask hnumber
  exact Nat.le_antisymm (hdue wakeAt hwake) (horderly.now_le htask hwake)

/-- Every run leaves a consumer seated. -/
theorem Runs.seated (h : Runs c₀ c) (hfresh : c₀.Fresh) (hqueue : c₀.queue.Sound) : Seated c := by
  induction h with
  | refl => exact hfresh.seated
  | @move c c' hruns hmove ih =>
      have hnumbers := (hruns.orderly hfresh hqueue).books.tasks_nodup
      have hafter := ((hruns.move hmove).orderly hfresh hqueue).books.tasks_nodup
      cases ih.moved hmove with
      | aside haside => exact ih.aside hafter haside
      | stint _ _ hdoes => exact ih.stint hdoes
      | pass instant _ => exact ih.ring hnumbers instant

end ProductCatalog.Consumer
