import ProductCatalog.Proofs.Consumer.Receives

/-!
# One receive after the other

The loop of a consumer has one receive at a time.  When a receive has brought
a batch, the next one begins at once; when it has failed, the next one begins
after the pause, no earlier and no later.  Only being asked to stop ends this,
and then at once: no receive begins any more, and none that has begun takes
another message.

## Main definitions

* `Poised` — how far the loop has come after the latest beginning or end.
* `Disciplined` — a consumer that keeps to the order of its receives.
* `Ceased` — one that has received nothing since it was asked to stop.

## Main results

* `Disciplined.move`, `Ceased.move` — every move keeps a consumer so.
* `Disciplined.begins`, `PatientRuns.steps_pausing` — the next receive comes
  by itself.
* `receives_disciplined` — the order of the receives in every run.
-/

namespace ProductCatalog.Consumer

open Queue (Delivery)

variable {c₀ c c' : Consumer}

/-! ## How the loop stands between its receives -/

/-- How far the loop has come after the latest beginning or end of a receive. -/
inductive Poised (s : Settings) (now : Nat) (asked : Bool) (turns : List Party) :
    Option (Nat × Incident) → Phase → Prop
  | idle : Poised s now asked turns none .idle
  | starting (h : .loop ∈ turns) : Poised s now asked turns none .starting
  | first (h : turns.head? = some .loop) : Poised s now asked turns none .polling
  | again {batch} (h : turns.head? = some .loop) :
      Poised s now asked turns (some (now, .received batch)) .polling
  | retrying {t error} (h : turns.head? = some .loop) (hnow : t + s.retryDelay = now) :
      Poised s now asked turns (some (t, .receiveFailed error)) .polling
  | receiving {t poll} (h : t ≤ now) :
      Poised s now asked turns (some (t, .receiveBegan)) (.receiving poll)
  /-- Only whoever asks the loop to stop gives it a turn before the pause is over. -/
  | pausing {t error} (h : asked = true ∨
      now ≤ t + s.retryDelay ∧ (.loop ∈ turns ↔ now = t + s.retryDelay)) :
      Poised s now asked turns (some (t, .receiveFailed error)) (.pausing (t + s.retryDelay))
  | closing {last phase} (hasked : asked = true) (hphase : phase = .draining ∨ phase = .stopped) :
      Poised s now asked turns last phase

/-- A consumer that keeps to the order of its receives. -/
structure Disciplined (c : Consumer) : Prop where
  once : c.turns.count .loop ≤ 1
  regular : Regular c.settings c.history
  poised : Poised c.settings c.now c.stopAsked c.turns (receives c.history).getLast? c.phase

namespace Poised

variable {s : Settings} {now : Nat} {asked : Bool} {turns turns' : List Party}
  {last : Option (Nat × Incident)} {phase : Phase}

/-- Turns of others make no difference. -/
theorem of_turns (h : Poised s now asked turns last phase)
    (hhead : turns.head? = some .loop → turns'.head? = some .loop)
    (hloop : phase = .starting ∨ (∃ t, phase = .pausing t) → (.loop ∈ turns' ↔ .loop ∈ turns)) :
    Poised s now asked turns' last phase := by
  cases h with
  | idle => exact .idle
  | starting h => exact .starting ((hloop (.inl rfl)).2 h)
  | first h => exact .first (hhead h)
  | again h => exact .again (hhead h)
  | retrying h hnow => exact .retrying (hhead h) hnow
  | receiving h => exact .receiving h
  | pausing h =>
      rw [← hloop (.inr ⟨_, rfl⟩)] at h
      exact .pausing h
  | closing hasked hphase => exact .closing hasked hphase

/-- Whoever is asked to stop may go on before a pause is over. -/
theorem of_asked (h : Poised s now asked turns last phase)
    (hturns : phase.sleeps = false → turns' = turns) : Poised s now true turns' last phase := by
  cases h with
  | idle => exact .idle
  | starting h => exact .starting (hturns rfl ▸ h)
  | first h => exact .first (hturns rfl ▸ h)
  | again h => exact .again (hturns rfl ▸ h)
  | retrying h hnow => exact .retrying (hturns rfl ▸ h) hnow
  | receiving h => exact .receiving h
  | pausing h => exact .pausing (.inl rfl)
  | closing _ hphase => exact .closing rfl hphase

/-- Time passes only while the loop has no turn, and passes over no pause. -/
theorem of_pass {now' : Nat} (h : Poised s now asked turns last phase) (hle : now ≤ now')
    (hclock : now' ≠ now → turns = []) (hturns : turns <+: turns')
    (hpause : ∀ wakeAt, phase = .pausing wakeAt → now ≤ wakeAt →
      (.loop ∈ turns ↔ now = wakeAt) → now' ≤ wakeAt ∧ (.loop ∈ turns' ↔ now' = wakeAt)) :
    Poised s now' asked turns' last phase := by
  have hhead : turns.head? = some .loop → now' = now ∧ turns'.head? = some .loop := by
    intro hhead
    obtain ⟨more, rfl⟩ := hturns
    refine ⟨?_, by rw [List.head?_append, hhead]; rfl⟩
    by_contra hne
    rw [hclock hne] at hhead
    cases hhead
  cases h with
  | idle => exact .idle
  | starting h => exact .starting (hturns.subset h)
  | first h => exact .first (hhead h).2
  | again h =>
      obtain ⟨hnow, h⟩ := hhead h
      rw [← hnow]
      exact .again h
  | retrying h hnow => exact .retrying (hhead h).2 (hnow.trans (hhead h).1.symm)
  | receiving h => exact .receiving (Nat.le_trans h hle)
  | pausing h => exact .pausing (h.imp id fun h => hpause _ rfl h.1 h.2)
  | closing hasked hphase => exact .closing hasked hphase

/-- A loop that is about to receive may do so. -/
theorem regular_begin {history history' : List (Nat × Incident)}
    (h : Poised s now asked turns (receives history).getLast? .polling)
    (hregular : Regular s history) (hasked : asked = false)
    (heq : receives history' = receives history ++ [(now, .receiveBegan)]) :
    Regular s history' := by
  generalize hlast : (receives history).getLast? = last at h
  cases h with
  | first => exact .begin (List.getLast?_eq_none_iff.1 hlast) heq
  | again => exact hregular.snoc hlast .atOnce heq
  | retrying _ hnow =>
      rw [← hnow] at heq
      exact hregular.snoc hlast .paused heq
  | closing hclosing =>
      rw [hasked] at hclosing
      cases hclosing

/-- A loop that is about to receive has the next turn. -/
theorem head_turns (h : Poised s now asked turns last .polling) :
    turns.head? = some .loop := by
  cases h with
  | first h | again h | retrying h => exact h
  | closing _ hphase => rcases hphase with hphase | hphase <;> cases hphase

/-- Only whoever has been asked to stop stops receiving. -/
theorem asked_of_closing (h : Poised s now asked turns last phase)
    (hphase : phase = .draining ∨ phase = .stopped) : asked = true := by
  cases h with
  | closing hasked => exact hasked
  | _ => rcases hphase with hphase | hphase <;> cases hphase

/-- After a batch the loop is about to receive. -/
theorem after_batch {t : Nat} {batch : List Delivery}
    (h : Poised s now false turns (some (t, .received batch)) phase) :
    phase = .polling ∧ now = t := by
  cases h with
  | again => exact ⟨rfl, rfl⟩
  | closing hasked => cases hasked

/-- After a failure the loop pauses, or is about to receive when the pause is over. -/
theorem after_failure {t : Nat} {error : TransportError}
    (h : Poised s now false turns (some (t, .receiveFailed error)) phase) :
    phase = .polling ∧ now = t + s.retryDelay ∨
      phase = .pausing (t + s.retryDelay) ∧ now ≤ t + s.retryDelay := by
  cases h with
  | retrying _ hnow => exact .inl ⟨rfl, hnow.symm⟩
  | pausing h => exact .inr ⟨rfl, (h.resolve_left Bool.false_ne_true).1⟩
  | closing hasked => cases hasked

end Poised

/-- Counting tasks leaves the loop where it is. -/
theorem countEnded_loop (c : Consumer) :
    c.countEnded.settings = c.settings ∧ c.countEnded.now = c.now ∧
      c.countEnded.stopAsked = c.stopAsked ∧ c.countEnded.turns = c.turns := by
  rw [countEnded_record]
  exact ⟨rfl, rfl, rfl, rfl⟩

/-- No time gives the loop two turns. -/
theorem count_turns_ring (honce : c.turns.count .loop ≤ 1) (instant : Nat) :
    (c.ring instant).turns.count .loop ≤ 1 := by
  have htasks : ∀ alarm ∈ c.tasks.filterMap fun task => task.wakeAt?.map fun wakeAt =>
      (wakeAt, task.alarm, Party.task task.delivery.number), alarm.2.2 ≠ .loop := by
    intro alarm halarm
    obtain ⟨task, -, htask⟩ := List.mem_filterMap.1 halarm
    obtain ⟨wakeAt, -, rfl⟩ := Option.map_eq_some_iff.1 htask
    nofun
  have hloop : c.loopAlarm.length ≤ 1 := by
    unfold loopAlarm
    split <;> simp
  have hpending : (c.pending.map (·.2.2)).count .loop ≤ 1 := by
    have hnone : Party.loop ∉ (c.tasks.filterMap fun task => task.wakeAt?.map fun wakeAt =>
        (wakeAt, task.alarm, Party.task task.delivery.number)).map (·.2.2) := by
      intro hmem
      obtain ⟨alarm, halarm, hparty⟩ := List.mem_map.1 hmem
      exact htasks alarm halarm hparty
    rw [pending, List.map_append, List.count_append, List.count_eq_zero_of_not_mem hnone]
    refine Nat.le_trans List.count_le_length ?_
    rwa [List.length_map]
  show (c.turns ++ List.filter _ _).count Party.loop ≤ 1
  rw [List.count_append]
  by_cases hturn : .loop ∈ c.turns
  · have hnew : ∀ parties : List Party,
        Party.loop ∉ parties.filter fun party => !c.turns.contains party := by simp [hturn]
    rw [List.count_eq_zero_of_not_mem (hnew _)]
    exact honce
  · rw [List.count_eq_zero_of_not_mem hturn, Nat.zero_add]
    refine Nat.le_trans (List.filter_sublist.count_le _) ?_
    rw [((List.mergeSort_perm _ _).map _).count_eq]
    exact Nat.le_trans ((List.filter_sublist.map _).count_le _) hpending

namespace Disciplined

/-- What has nothing to do with the receives, and gives turns to others at most. -/
theorem aside (h : Disciplined c) (hsettings : c'.settings = c.settings) (hnow : c'.now = c.now)
    (hasked : c'.stopAsked = c.stopAsked) (hphase : c'.phase = c.phase)
    (hreceives : receives c'.history = receives c.history) (honce : c'.turns.count .loop ≤ 1)
    (hhead : c.turns.head? = some .loop → c'.turns.head? = some .loop)
    (hloop : c.phase = .starting ∨ (∃ t, c.phase = .pausing t) →
      (.loop ∈ c'.turns ↔ .loop ∈ c.turns)) : Disciplined c' := by
  refine ⟨honce, ?_, ?_⟩
  · rw [hsettings]
    exact h.regular.congr hreceives
  · rw [hsettings, hnow, hasked, hphase, hreceives]
    exact h.poised.of_turns hhead hloop

/-! ### The loop -/

/-- A loop that has been asked to stop receives no more. -/
theorem drain (hgone : .loop ∉ c.turns) (hregular : Regular c.settings c.history)
    (hasked : c.stopAsked = true) : Disciplined c.drain := by
  refine ⟨?_, hregular.congr (c.receives_note_quiet rfl), .closing hasked (.inl rfl)⟩
  show (Party.loop :: c.turns).count .loop ≤ 1
  rw [List.count_cons_self, List.count_eq_zero_of_not_mem hgone]

/-- A receive that has begun ends or goes on. -/
theorem settle {t : Nat} (hgone : .loop ∉ c.turns) (hregular : Regular c.settings c.history)
    (hlast : (receives c.history).getLast? = some (t, .receiveBegan)) (ht : t ≤ c.now)
    (answer : Queue × Queue.PollState) : Disciplined (c.settle answer) := by
  have hgiven : (Party.loop :: c.turns).count .loop ≤ 1 := by
    rw [List.count_cons_self, List.count_eq_zero_of_not_mem hgone]
  have hnone : c.turns.count .loop ≤ 1 := by
    rw [List.count_eq_zero_of_not_mem hgone]
    exact Nat.zero_le 1
  obtain ⟨q, state⟩ := answer
  cases state with
  | waiting poll =>
      refine ⟨hnone, hregular, ?_⟩
      show Poised c.settings c.now c.stopAsked c.turns (receives c.history).getLast? _
      rw [hlast]
      exact .receiving ht
  | finished result =>
      cases result with
      | ok batch =>
          have hreceives := c.receives_note (i := .received batch) rfl
          refine ⟨?_, hregular.snoc hlast (.received ht) hreceives, ?_⟩
          · have htasks : Party.loop ∉ batch.map fun d => Party.task d.number := by simp
            show (Party.loop :: (c.turns ++ _)).count .loop ≤ 1
            rw [List.count_cons_self, List.count_append, List.count_eq_zero_of_not_mem hgone,
              List.count_eq_zero_of_not_mem htasks]
          · show Poised c.settings c.now c.stopAsked _
              (receives (c.note (.received batch)).history).getLast? .polling
            rw [hreceives, List.getLast?_concat]
            exact .again rfl
      | error error =>
          have hreceives := c.receives_note (i := .receiveFailed error) rfl
          have hregular' := hregular.snoc hlast (.failed ht) hreceives
          simp only [Consumer.settle]
          split
          · next hzero =>
              refine ⟨hgiven, hregular', ?_⟩
              show Poised c.settings c.now c.stopAsked _
                (receives (c.note (.receiveFailed error)).history).getLast? .polling
              rw [hreceives, List.getLast?_concat]
              refine .retrying rfl ?_
              have hdelay : c.settings.retryDelay = 0 := hzero
              omega
          · next hwait =>
              have hdelay : c.settings.retryDelay ≠ 0 := hwait
              refine ⟨hnone, hregular', ?_⟩
              show Poised c.settings c.now c.stopAsked c.turns
                (receives (c.note (.receiveFailed error)).history).getLast?
                  (.pausing (c.now + c.settings.retryDelay))
              rw [hreceives, List.getLast?_concat]
              refine .pausing (.inr ⟨Nat.le_add_right .., iff_of_false hgone ?_⟩)
              omega

/-- A turn of the loop, whatever the transport answers. -/
theorem loopTurnWith {turns : List Party} (hgone : .loop ∉ c.turns)
    (hregular : Regular c.settings c.history) (hturn : .loop ∈ turns)
    (hpoised : Poised c.settings c.now c.stopAsked turns (receives c.history).getLast? c.phase)
    (answer : Queue × Queue.PollState) : Disciplined (c.loopTurnWith answer) := by
  obtain ⟨hsettings, hnow, hasked, hturns⟩ := c.countEnded_loop
  have hgone' : .loop ∉ c.countEnded.turns := hturns ▸ hgone
  have hregular' : Regular c.countEnded.settings c.countEnded.history :=
    hsettings ▸ hregular.congr c.receives_countEnded
  have hgiven : (Party.loop :: c.turns).count .loop ≤ 1 := by
    rw [List.count_cons_self, List.count_eq_zero_of_not_mem hgone]
  have hnone : c.turns.count .loop ≤ 1 := by
    rw [List.count_eq_zero_of_not_mem hgone]
    exact Nat.zero_le 1
  unfold Consumer.loopTurnWith
  generalize hlast : (receives c.history).getLast? = last at hpoised
  cases hphase : c.phase with
  | idle =>
      simp only [loopTurn, hphase]
      refine ⟨hnone, hregular, ?_⟩
      rw [hlast, hphase]
      rw [hphase] at hpoised
      cases hpoised with
      | idle => exact .idle
      | closing hclosing hover => exact .closing hclosing hover
  | stopped =>
      simp only [loopTurn, hphase]
      refine ⟨hnone, hregular, ?_⟩
      rw [hlast, hphase]
      rw [hphase] at hpoised
      cases hpoised with
      | closing hclosing hover => exact .closing hclosing hover
  | starting =>
      simp only [loopTurn, hphase]
      have hreceives := c.receives_note_quiet (i := .began) rfl
      refine ⟨hgiven, hregular.congr hreceives, ?_⟩
      show Poised c.settings c.now c.stopAsked _ (receives (c.note .began).history).getLast?
        .polling
      rw [hreceives, hlast]
      rw [hphase] at hpoised
      cases hpoised with
      | starting => exact .first rfl
      | closing _ hover => rcases hover with hover | hover <;> cases hover
  | polling =>
      simp only
      split
      · next hstops => exact drain hgone' hregular' hstops
      · next hgoes =>
          have hbegun := c.countEnded.receives_note (i := .receiveBegan) rfl
          rw [hphase, ← hlast] at hpoised
          rw [hasked] at hgoes
          rw [c.receives_countEnded, hnow] at hbegun
          have hregular₁ : Regular c.countEnded.settings
              (c.countEnded.note .receiveBegan).history :=
            hsettings ▸ hpoised.regular_begin hregular (Bool.eq_false_iff.2 hgoes) hbegun
          refine settle (c := c.countEnded.note .receiveBegan) hgone' hregular₁ ?_
            (Nat.le_of_eq hnow.symm) answer
          rw [hbegun, List.getLast?_concat]
  | receiving poll =>
      simp only
      split
      · next hstops => exact drain hgone hregular hstops
      · next hgoes =>
          rw [hphase] at hpoised
          cases hpoised with
          | receiving hle => exact settle hgone hregular hlast hle answer
          | closing hclosing => exact absurd hclosing hgoes
  | pausing wakeAt =>
      simp only [loopTurn, hphase]
      split
      · next hstops => exact drain hgone hregular hstops
      · next hgoes =>
          refine ⟨hgiven, hregular, ?_⟩
          show Poised c.settings c.now c.stopAsked _ (receives c.history).getLast? .polling
          rw [hlast]
          rw [hphase] at hpoised
          cases hpoised with
          | pausing h =>
              obtain ⟨-, hdue⟩ := h.resolve_left hgoes
              exact .retrying rfl (hdue.1 hturn).symm
          | closing hclosing => exact absurd hclosing hgoes
  | draining =>
      rw [hphase] at hpoised
      have hclosing : c.countEnded.stopAsked = true := by
        rw [hasked]
        cases hpoised
        assumption
      simp only [loopTurn, hphase]
      have hnone' : c.countEnded.turns.count .loop ≤ 1 := hturns ▸ hnone
      split
      · exact ⟨hnone', hregular'.congr (receives_note_quiet _ rfl), .closing hclosing (.inr rfl)⟩
      · refine ⟨hnone', hregular', .closing hclosing (.inl ?_)⟩
        rw [countEnded_record]
        exact hphase

/-! ### Every move -/

theorem turn (h : Disciplined c) (hturn : .loop ∈ c.turns) (answer : Queue × Queue.PollState) :
    Disciplined ({ c with turns := c.turns.erase .loop }.loopTurnWith answer) := by
  have hgone : .loop ∉ c.turns.erase .loop := by
    rw [← List.count_eq_zero, List.count_erase_self]
    have honce := h.once
    omega
  exact loopTurnWith (c := { c with turns := c.turns.erase .loop }) hgone h.regular hturn
    h.poised answer

theorem taskTurn (h : Disciplined c) (n : Nat) :
    Disciplined ({ c with turns := c.turns.erase (.task n) }.taskTurn n) := by
  obtain ⟨q, calls, service, deletions, news, alarms, tasks, ended, turns, -, hnews, hturns,
    hrecord⟩ := taskTurn_record { c with turns := c.turns.erase (.task n) } n
  have hloop : .loop ∈ c.turns.erase (.task n) ↔ .loop ∈ c.turns :=
    List.mem_erase_of_ne (by simp)
  have hcount : (c.turns.erase (.task n)).count .loop = c.turns.count .loop :=
    List.count_erase_of_ne (by simp)
  have honce := h.once
  rw [hrecord]
  refine h.aside rfl rfl rfl rfl (receives_quiet fun x hx => (hnews x hx).2) ?_ ?_ ?_
  · show turns.count .loop ≤ 1
    rcases hturns with rfl | ⟨-, hnone, rfl⟩
    · rw [hcount]
      exact honce
    · rw [List.count_append, List.count_eq_zero_of_not_mem hnone]
      exact Nat.le_refl 1
  · intro hhead
    obtain ⟨rest, hrest⟩ := List.head?_eq_some_iff.1 hhead
    have herase : c.turns.erase (.task n) = .loop :: rest.erase (.task n) := by
      rw [hrest]
      exact List.erase_cons_tail (by simp)
    show turns.head? = some .loop
    rcases hturns with rfl | ⟨-, hnone, -⟩
    · rw [herase]
      rfl
    · exact absurd (herase ▸ List.mem_cons_self) hnone
  · intro hphase
    show .loop ∈ turns ↔ _
    rcases hturns with rfl | ⟨hdraining, -⟩
    · exact hloop
    · rcases hphase with hphase | ⟨t, hphase⟩
      · exact absurd (hphase.symm.trans hdraining) nofun
      · exact absurd (hphase.symm.trans hdraining) nofun

theorem pass (h : Disciplined c) {instant : Nat} (halarms : ∀ alarm ∈ c.pending, instant ≤ alarm.1)
    (hclock : (c.ring instant).now ≠ c.now → c.turns = []) : Disciplined (c.ring instant) := by
  refine ⟨count_turns_ring h.once instant, h.regular, ?_⟩
  refine h.poised.of_pass (Nat.le_max_left ..) hclock (List.prefix_append ..) ?_
  intro wakeAt hphase hle hdue
  have halarm : (wakeAt, c.alarm, Party.loop) ∈ c.pending := by
    refine List.mem_append_left _ ?_
    rw [loopAlarm, hphase]
    exact List.mem_singleton_self _
  have hinstant := halarms _ halarm
  have hnow : (c.ring instant).now = max c.now instant := rfl
  refine ⟨by omega, ?_⟩
  rw [mem_turns_ring, hdue]
  constructor
  · rintro (hnow' | ⟨alarm, hmem, hrings, hparty⟩)
    · omega
    · have hleast := halarms alarm hmem
      rcases List.mem_append.1 hmem with hloop | htask
      · rw [loopAlarm, hphase] at hloop
        obtain rfl := List.mem_singleton.1 hloop
        simp only at hrings
        omega
      · obtain ⟨task, -, htask⟩ := List.mem_filterMap.1 htask
        obtain ⟨other, -, rfl⟩ := Option.map_eq_some_iff.1 htask
        cases hparty
  · intro hnow'
    by_cases hpast : c.now = wakeAt
    · exact .inl hpast
    · exact .inr ⟨_, halarm, by simp only; omega, rfl⟩

theorem start (h : Disciplined c) : Disciplined c.start := by
  have honce := (Aside.refl c).start.loop
  have hbefore := h.once
  have hpoised := h.poised
  by_cases hphase : c.phase = .idle
  · have hstart : c.start = { c with phase := .starting }.wakeLoop := if_pos hphase
    refine ⟨by omega, ?_, ?_⟩
    · rw [hstart, wakeLoop_record]
      exact h.regular
    · rw [hphase] at hpoised
      have hturn := mem_wakeLoop { c with phase := .starting }
      rw [hstart]
      rw [wakeLoop_record] at hturn ⊢
      simp only at hturn ⊢
      generalize (receives c.history).getLast? = last at hpoised ⊢
      cases hpoised with
      | idle => exact .starting hturn
      | closing _ hover => rcases hover with hover | hover <;> cases hover
  · have hstart : c.start = c := if_neg hphase
    rwa [hstart]

theorem stop (h : Disciplined c) : Disciplined c.stop := by
  have honce := (Aside.refl c).stop.loop
  have hbefore := h.once
  have hrouse := rouse_eq { c with stopAsked := true }
  obtain ⟨turns, -, -, hrecord⟩ := rouse_record { c with stopAsked := true }
  have hturns : c.phase.sleeps = false → turns = c.turns := by
    intro hsleeps
    have hsame : { c with stopAsked := true }.rouse = { c with stopAsked := true } :=
      hrouse.trans (if_neg (by simp [hsleeps]))
    exact congrArg Consumer.turns (hrecord.symm.trans hsame)
  refine ⟨by omega, ?_, ?_⟩
  · rw [Consumer.stop, hrecord]
    exact h.regular
  · rw [Consumer.stop, hrecord]
    exact h.poised.of_asked hturns

theorem announce (h : Disciplined c) : Disciplined c.announce := by
  obtain ⟨turns, hturns, hrecord⟩ := c.announce_record
  rw [hrecord]
  rcases hturns with rfl | ⟨⟨poll, hphase⟩, hnone, rfl⟩
  · exact h
  · refine h.aside rfl rfl rfl rfl rfl ?_ (fun hhead => ?_) fun hother => ?_
    · show (c.turns ++ [Party.loop]).count .loop ≤ 1
      rw [List.count_append, List.count_eq_zero_of_not_mem hnone]
      exact Nat.le_refl 1
    · exact absurd (List.mem_of_mem_head? hhead) hnone
    · rw [hphase] at hother
      rcases hother with hother | ⟨t, hother⟩ <;> cases hother

/-- Whatever becomes of the queue. -/
theorem requeue (h : Disciplined c) (q : Queue) : Disciplined { c with queue := q } :=
  { h with }

theorem send (h : Disciplined c) (body : Text.Bytes) : Disciplined (c.send body).1 := by
  rcases c.queue.send_cases body with hsend | ⟨faults, error, hsend⟩
  · simp only [Consumer.send, hsend]
    exact (h.requeue _).announce
  · simp only [Consumer.send, hsend]
    exact h.requeue _

theorem publish (h : Disciplined c) (event : LifecycleEvent) :
    Disciplined (c.publish event).1 := by
  have hsent := h.send event.encode
  unfold Consumer.publish
  split
  · next c' hsend =>
      rw [hsend] at hsent
      exact hsent.aside rfl rfl rfl rfl (receives_note_quiet c' rfl) hsent.once id fun _ => .rfl
  · next c' error hsend =>
      rw [hsend] at hsent
      exact hsent

/-- Every move keeps to the order of the receives. -/
theorem move (h : Disciplined c) (hmove : Served c c') (hclock : c'.now ≠ c.now → c.turns = []) :
    Disciplined c' := by
  cases hmove with
  | answered => exact h.announce
  | turn answer hturn => exact h.turn hturn answer
  | move hmove =>
      cases hmove with
      | turn party hparty =>
          cases party with
          | loop =>
              obtain ⟨answer, hanswer⟩ := loopTurn_eq_with { c with turns := c.turns.erase .loop }
              rw [turnOf, hanswer]
              exact h.turn hparty answer
          | task n => exact h.taskTurn n
      | pass instant halarms => exact h.pass halarms hclock
      | start => exact h.start
      | stop => exact h.stop
      | send body => exact h.send body
      | publish event => exact h.publish event
      | fail faults => exact h.requeue _
      | reorder leases => exact h.requeue _

end Disciplined

theorem Fresh.disciplined (h : c.Fresh) : Disciplined c where
  once := by simp [h.turns]
  regular := ⟨by rw [h.history]; exact .nil, by simp [h.history, receives]⟩
  poised := by
    rw [h.phase, h.history]
    exact .idle

/-- Every run keeps to the order of its receives. -/
theorem Serves.disciplined (h : Serves c₀ c) (hfresh : c₀.Fresh) : Disciplined c := by
  induction h with
  | refl => exact hfresh.disciplined
  | move _ hmove hclock ih => exact ih.move hmove hclock

/-! ## After being asked to stop -/

/-- Nothing has been received since a run was asked to stop. -/
structure Ceased (c c' : Consumer) : Prop where
  asked : c'.stopAsked = true
  receives : receives c'.history = receives c.history
  deliveries : c'.queue.deliveries = c.queue.deliveries
  leased : c'.queue.leased ⊆ c.queue.leased

/-- A loop that has been asked to stop does not listen to its transport. -/
theorem loopTurnWith_asked (hasked : c.stopAsked = true) (answer : Queue × Queue.PollState) :
    c.loopTurnWith answer = c.loopTurn ∧ c.loopTurn.queue = c.queue ∧
      receives c.loopTurn.history = receives c.history := by
  have hasked' : c.countEnded.stopAsked = true := c.countEnded_loop.2.2.1.trans hasked
  obtain ⟨phase, turns, ended, report, news, -, hrecord⟩ := loopTurn_asked hasked
  refine ⟨?_, by rw [hrecord], ?_⟩
  · unfold loopTurnWith
    cases hphase : c.phase <;> simp only [loopTurn, hphase, hasked, hasked', if_true]
  · unfold loopTurn
    cases hphase : c.phase with
    | idle | stopped => rfl
    | starting => exact c.receives_note_quiet rfl
    | polling =>
        simp only [hasked', if_true]
        exact (c.countEnded.receives_note_quiet rfl).trans c.receives_countEnded
    | receiving poll | pausing wakeAt =>
        simp only [hasked, if_true]
        exact c.receives_note_quiet rfl
    | draining =>
        simp only
        split
        · exact (receives_note_quiet _ rfl).trans c.receives_countEnded
        · exact c.receives_countEnded

namespace Ceased

variable {c'' : Consumer}

/-- Deletions at most happen to the queue, and nothing to the receives. -/
theorem aside (h : Ceased c c') (hasked : c''.stopAsked = true)
    (hreceives : Consumer.receives c''.history = Consumer.receives c'.history)
    (hdeliveries : c''.queue.deliveries = c'.queue.deliveries)
    (hleased : c''.queue.leased ⊆ c'.queue.leased) : Ceased c c'' where
  asked := hasked
  receives := hreceives.trans h.receives
  deliveries := hdeliveries.trans h.deliveries
  leased := List.Subset.trans hleased h.leased

theorem loopTurnWith (h : Ceased c c') (turns : List Party) (answer : Queue × Queue.PollState) :
    Ceased c ({ c' with turns := turns }.loopTurnWith answer) := by
  have hasked : { c' with turns := turns }.stopAsked = true := h.asked
  obtain ⟨hsame, hqueue, hreceives⟩ := loopTurnWith_asked hasked answer
  obtain ⟨phase, turns', ended, report, news, -, hrecord⟩ := loopTurn_asked hasked
  rw [hsame]
  refine h.aside (by rw [hrecord]; exact h.asked) hreceives (by rw [hqueue]) ?_
  rw [hqueue]
  exact List.Subset.refl _

theorem announce (h : Ceased c c') : Ceased c c'.announce := by
  obtain ⟨turns, -, hrecord⟩ := c'.announce_record
  rw [hrecord]
  exact h.aside h.asked rfl rfl (List.Subset.refl _)

theorem send (h : Ceased c c') (body : Text.Bytes) : Ceased c (c'.send body).1 := by
  rcases c'.queue.send_cases body with hsend | ⟨faults, error, hsend⟩
  · have hpushed : Ceased c { c' with queue := c'.queue.push body } :=
      h.aside h.asked rfl rfl (List.Subset.refl _)
    simp only [Consumer.send, hsend]
    exact hpushed.announce
  · simp only [Consumer.send, hsend]
    exact h.aside h.asked rfl rfl (List.Subset.refl _)

/-- It remains so whatever happens. -/
theorem move (h : Ceased c c') (hmove : Served c' c'') : Ceased c c'' := by
  have hsame := List.Subset.refl c'.queue.leased
  cases hmove with
  | answered => exact h.announce
  | turn answer => exact h.loopTurnWith _ answer
  | move hmove =>
      cases hmove with
      | turn party =>
          cases party with
          | loop =>
              obtain ⟨answer, hanswer⟩ := loopTurn_eq_with { c' with turns := c'.turns.erase .loop }
              rw [turnOf, hanswer]
              exact h.loopTurnWith _ answer
          | task n =>
              obtain ⟨q, calls, service, deletions, news, alarms, tasks, ended, turns, hqueue,
                hnews, -, hrecord⟩ := taskTurn_record { c' with turns := c'.turns.erase (.task n) } n
              have hreceives :
                  Consumer.receives (c'.history ++ news) = Consumer.receives c'.history :=
                receives_quiet fun x hx => (hnews x hx).2
              rw [turnOf, hrecord]
              rcases hqueue with rfl | ⟨token, rfl⟩
              · exact h.aside h.asked hreceives rfl hsame
              · exact h.aside h.asked hreceives (Queue.deliveries_delete ..)
                  (Queue.leased_delete_subset ..)
      | pass instant => exact h.aside h.asked rfl rfl hsame
      | start =>
          unfold Consumer.start
          split
          · rw [wakeLoop_record]
            exact h.aside h.asked rfl rfl hsame
          · exact h
      | stop =>
          obtain ⟨turns, -, -, hrecord⟩ := rouse_record { c' with stopAsked := true }
          rw [Consumer.stop, hrecord]
          exact h.aside rfl rfl rfl hsame
      | send body => exact h.send body
      | publish event =>
          have hsent := h.send event.encode
          unfold Consumer.publish
          split
          · next c₁ hsend =>
              rw [hsend] at hsent
              exact hsent.aside hsent.asked (c₁.receives_note_quiet rfl) rfl
                (List.Subset.refl _)
          · next c₁ error hsend =>
              rw [hsend] at hsent
              exact hsent
      | fail faults => exact h.aside h.asked rfl rfl hsame
      | reorder leases hperm => exact h.aside h.asked rfl rfl hperm.subset

end Ceased

/-- Whoever has been asked to stop receives no more. -/
theorem Serves.ceased (h : Serves c.stop c') : Ceased c c' := by
  induction h with
  | refl =>
      obtain ⟨turns, -, -, hrecord⟩ := rouse_record { c with stopAsked := true }
      rw [stop, hrecord]
      exact ⟨rfl, rfl, rfl, List.Subset.refl _⟩
  | move _ hmove _ ih => exact ih.move hmove

/-! ## The next receive -/

theorem receives_beginReceive (c : Consumer) :
    ∃ rest, receives c.beginReceive.history =
      receives c.history ++ (c.now, .receiveBegan) :: rest := by
  obtain ⟨news, hnews⟩ := (c.note .receiveBegan).settle_history
    (c.queue.receive c.now c.settings.maxMessages c.settings.waitTime)
  refine ⟨receives news, ?_⟩
  rw [beginReceive, hnews, receives_append, receives_note _ rfl, List.append_assoc]
  rfl

/-- A loop that is about to receive has the next turn, and begins. -/
theorem Disciplined.begins (h : Disciplined c) (hphase : c.phase = .polling)
    (hasked : c.stopAsked = false) (limit : Nat) :
    ∃ next rest, c.step? limit = some next ∧
      receives next.history = receives c.history ++ (c.now, .receiveBegan) :: rest := by
  have hloop : ∀ c : Consumer, c.phase = .polling → c.stopAsked = false →
      c.loopTurn = c.countEnded.beginReceive := by
    intro c hphase hasked
    rw [loopTurn, hphase]
    refine if_neg ?_
    rw [c.countEnded_loop.2.2.1, hasked]
    exact Bool.false_ne_true
  have hpoised := h.poised
  rw [hphase] at hpoised
  obtain ⟨turns, hturns⟩ := List.head?_eq_some_iff.1 hpoised.head_turns
  obtain ⟨rest, hrest⟩ := { c with turns := turns }.countEnded.receives_beginReceive
  rw [receives_countEnded, (countEnded_loop { c with turns := turns }).2.1] at hrest
  refine ⟨{ c with turns := turns }.loopTurn, rest, ?_, ?_⟩
  · simp only [step?, hturns]
    rfl
  · rw [hloop { c with turns := turns } hphase hasked]
    exact hrest

/-- By itself a loop that pauses begins its next receive when the pause is over. -/
theorem PatientRuns.steps_pausing (hfresh : c₀.Fresh) (hqueue : c₀.queue.Sound)
    (h : PatientRuns c₀ c) {wakeAt : Nat} (hphase : c.phase = .pausing wakeAt)
    (hasked : c.stopAsked = false) :
    ∃ n rest, receives (steps (wakeAt + 1) n c).history =
      receives c.history ++ (wakeAt, .receiveBegan) :: rest := by
  -- the induction is on what the tasks have yet to do
  generalize hmeasure : c.potential = measure
  induction measure using Nat.strongRecOn generalizing c with
  | ind measure ih =>
  subst hmeasure
  have hseated := h.runs.seated hfresh hqueue
  have hdisciplined := h.serves.disciplined hfresh
  have hpoised := hdisciplined.poised
  obtain ⟨hnow, hdue⟩ : c.now ≤ wakeAt ∧ (.loop ∈ c.turns ↔ c.now = wakeAt) := by
    rw [hphase, hasked] at hpoised
    generalize (receives c.history).getLast? = last at hpoised
    cases hpoised with
    | pausing hpause => exact hpause.resolve_left Bool.false_ne_true
    | closing hclosing => cases hclosing
  -- one step, and then the rest
  have honward : ∀ next, c.step? (wakeAt + 1) = some next → next.phase = .pausing wakeAt →
      next.stopAsked = false → receives next.history = receives c.history →
      next.potential < c.potential →
        ∃ n rest, receives (steps (wakeAt + 1) n c).history =
          receives c.history ++ (wakeAt, .receiveBegan) :: rest := by
    intro next hstep hphase' hasked' hreceives hless
    obtain ⟨n, rest, hsteps⟩ := ih _ hless (h.of_step hstep) hphase' hasked' rfl
    refine ⟨n + 1, rest, ?_⟩
    rw [steps, hstep, hsteps, hreceives]
  cases hturns : c.turns with
  | nil =>
      have halarm : (wakeAt, c.alarm, Party.loop) ∈ c.pending := by
        refine List.mem_append_left _ ?_
        rw [loopAlarm, hphase]
        exact List.mem_singleton_self _
      obtain ⟨instant, hle, hnext⟩ := exists_nextAlarm halarm
      have htoGo : (c.ring instant).toGo = c.toGo := by
        show work c.tasks + c.phase.left _ = work c.tasks + c.phase.left _
        rw [hphase]
        rfl
      refine honward (c.ring instant) ?_ hphase hasked rfl (potential_ring_lt hturns hnext htoGo)
      simp only [step?, hturns, hnext]
      exact if_pos (Nat.lt_succ_of_le hle)
  | cons party turns =>
      have hparty : party ∈ c.turns := hturns ▸ List.mem_cons_self
      have hrest : turns = c.turns.erase party := by rw [hturns, List.erase_cons_head]
      have hstep : c.step? (wakeAt + 1) = some ({ c with turns := turns }.turnOf party) := by
        simp only [step?, hturns]
      cases party with
      | loop =>
          have hlate : c.now = wakeAt := hdue.1 hparty
          have hturn : { c with turns := turns }.turnOf .loop =
              { c with turns := turns }.goOn .polling := by
            simp only [turnOf, loopTurn, hphase, hasked]
            rfl
          rw [hturn] at hstep
          obtain ⟨last, rest, hlast, hreceives⟩ :=
            ((h.of_step hstep).serves.disciplined hfresh).begins rfl hasked (wakeAt + 1)
          refine ⟨2, rest, ?_⟩
          simp only [steps, hstep, hlast]
          rw [hreceives, ← hlate]
          rfl
      | task n =>
          have hless := toGo_taskTurn_lt hseated (h.runs.orderly hfresh hqueue).books.tasks_nodup
            hparty
          rw [← hrest] at hless
          obtain ⟨q, calls, service, deletions, news, alarms, tasks, ended, turns', -, hnews, -,
            hrecord⟩ := taskTurn_record { c with turns := turns } n
          rw [turnOf] at hstep
          refine honward _ hstep ?_ ?_ ?_ (potential_lt_of_toGo hless)
          · rw [hrecord]
            exact hphase
          · rw [hrecord]
            exact hasked
          · rw [hrecord]
            exact receives_quiet fun x hx => (hnews x hx).2

variable {visibility : Nat}

/--
**One receive after the other.** Whatever transport its receives go to, and
whatever else happens: a consumer begins its first receive before it ends one,
and from then on beginnings and ends alternate.  A batch is followed by the
next receive at the same instant, and a failure by one exactly after the
pause.  Unless it has been asked to stop, a run never ends: after a batch the
loop has the next turn, and begins, whatever its tasks are doing; after a
failure the clock does not pass the end of the pause before the loop has begun
again, and with its queue it comes to do so by itself.  Once it has been asked
to stop, or nobody is left who could ask, nothing is received any more, and no
message is leased.
-/
theorem receives_disciplined (hfresh : c₀.Fresh) (hqueue : Queue.Reachable visibility c₀.queue)
    (h : Serves c₀ c) :
    (receives c.history).IsChain (Follows c.settings) ∧
    (∀ x ∈ (receives c.history).head?, x.2 = .receiveBegan) ∧
    (c.stopAsked = false → c.phase ≠ .draining ∧ c.phase ≠ .stopped ∧
      (∀ t batch, (receives c.history).getLast? = some (t, .received batch) →
        c.now = t ∧ ∀ limit, ∃ next rest, c.step? limit = some next ∧
          receives next.history = receives c.history ++ (t, .receiveBegan) :: rest) ∧
      ∀ t error, (receives c.history).getLast? = some (t, .receiveFailed error) →
        c.now ≤ t + c.settings.retryDelay ∧ (PatientRuns c₀ c → ∃ n rest,
          receives (steps (t + c.settings.retryDelay + 1) n c).history =
            receives c.history ++ (t + c.settings.retryDelay, .receiveBegan) :: rest)) ∧
    ∀ c', Serves c.stop c' → receives c'.history = receives c.history ∧
      c'.queue.deliveries = c.queue.deliveries ∧ c'.queue.leased ⊆ c.queue.leased := by
  have hdisciplined := h.disciplined hfresh
  refine ⟨hdisciplined.regular.chain, hdisciplined.regular.first, fun hasked => ?_,
    fun c' hafter => ?_⟩
  · have hpoised := hdisciplined.poised
    rw [hasked] at hpoised
    refine ⟨fun hphase => ?_, fun hphase => ?_, fun t batch hlast => ?_, fun t error hlast => ?_⟩
    · exact absurd (hpoised.asked_of_closing (.inl hphase)) Bool.false_ne_true
    · exact absurd (hpoised.asked_of_closing (.inr hphase)) Bool.false_ne_true
    · rw [hlast] at hpoised
      obtain ⟨hphase, hnow⟩ := hpoised.after_batch
      refine ⟨hnow, fun limit => ?_⟩
      rw [← hnow]
      exact hdisciplined.begins hphase hasked limit
    · rw [hlast] at hpoised
      rcases hpoised.after_failure with ⟨hphase, hnow⟩ | ⟨hphase, hnow⟩
      · refine ⟨Nat.le_of_eq hnow, fun _ => ?_⟩
        rw [← hnow]
        obtain ⟨next, rest, hstep, hreceives⟩ := hdisciplined.begins hphase hasked (c.now + 1)
        refine ⟨1, rest, ?_⟩
        simp only [steps, hstep]
        exact hreceives
      · exact ⟨hnow, fun hpatient =>
          hpatient.steps_pausing hfresh hqueue.sound hphase hasked⟩
  · have hceased := hafter.ceased
    exact ⟨hceased.receives, hceased.deliveries, hceased.leased⟩

/-- A consumer whose first receive is going to fail. -/
private def unlucky : Consumer where
  settings := { retryDelay := 50 }
  queue := { visibility := 30000, faults := { receives := 1 } }

/-- The first receive fails, and the next one begins after the pause unless the run is stopped
before. -/
theorem receives_disciplined_of_failure :
    ∃ c error, Serves unlucky c ∧ c.stopAsked = false ∧
      (receives c.history).getLast? = some (0, .receiveFailed error) ∧
      (∃ n rest, receives (steps 51 n c).history =
        receives c.history ++ (50, .receiveBegan) :: rest) ∧
      ∀ c', Serves c.stop c' → receives c'.history = receives c.history := by
  have hstarted : PatientRuns unlucky _ := PatientRuns.refl.prompt .start rfl
  obtain ⟨c, hruns, hasked, hdelay, error, hlast⟩ : ∃ c, PatientRuns unlucky c ∧
      c.stopAsked = false ∧ c.settings.retryDelay = 50 ∧
        ∃ error, (receives c.history).getLast? = some (0, .receiveFailed error) :=
    ⟨_, hstarted.of_steps 1 2, by decide +kernel, by decide +kernel, _, rfl⟩
  have hfresh : unlucky.Fresh := ⟨rfl, rfl, rfl, rfl, rfl, rfl⟩
  have hqueue : Queue.Reachable 30000 unlucky.queue := .fail .empty { receives := 1 }
  obtain ⟨-, -, hopen, hstopped⟩ := receives_disciplined hfresh hqueue hruns.serves
  obtain ⟨-, -, -, hfailed⟩ := hopen hasked
  have hnext := (hfailed 0 error hlast).2 hruns
  rw [hdelay] at hnext
  exact ⟨c, error, hruns.serves, hasked, hlast, hnext, fun c' hafter => (hstopped c' hafter).1⟩

end ProductCatalog.Consumer
