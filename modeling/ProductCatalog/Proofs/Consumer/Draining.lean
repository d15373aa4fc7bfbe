import ProductCatalog.Proofs.Consumer.Closing
import ProductCatalog.Proofs.Consumer.Judgement

/-!
# How a run comes to its end

A run that has been asked to stop ends by itself.  Every turn brings it
closer, and when nobody has a turn the next alarm is that of a task.  Nothing
cuts a task short meanwhile: a handler that answers in time is heard.

## Main results

* `toGo_turn_lt` — every turn brings such a run closer to its end.
* `PatientRuns.phase_finish` — a run that has begun can be led to its end.
* `draining_bounded` — it ends in time, by itself, and with every call made.
-/

namespace ProductCatalog.Consumer

open Queue (Delivery)

variable {c₀ c : Consumer}

/-! ## How much is left to do -/

/-- How many turns at most a loop has yet to take that has been asked to stop, as far as no task
wakes it. -/
def Phase.left (turn : Bool) : Phase → Nat
  | .starting => 3
  | .polling | .receiving _ | .pausing _ => 2
  | .draining => if turn then 1 else 0
  | .idle | .stopped => 0

/-- What the tasks have yet to do, each of which may wake the loop at its end. -/
def work : List Task → Nat
  | [] => 0
  | task :: tasks => task.state.left + 1 + work tasks

/-- How many turns at most a run has yet to see that has been asked to stop. -/
def toGo (c : Consumer) : Nat := work c.tasks + c.phase.left (decide (.loop ∈ c.turns))

theorem Phase.left_le (phase : Phase) (turn turn' : Bool) :
    phase.left turn ≤ phase.left turn' + 1 := by
  cases phase <;> cases turn <;> cases turn' <;> simp [Phase.left]

theorem Phase.left_le_three (phase : Phase) (turn : Bool) : phase.left turn ≤ 3 := by
  cases phase <;> cases turn <;> simp [Phase.left]

theorem work_perm {tasks others : List Task} (h : tasks.Perm others) :
    work tasks = work others := by
  induction h with
  | nil => rfl
  | cons task _ ih => simp only [work, ih]
  | swap first second rest =>
      simp only [work]
      omega
  | trans _ _ ih ih' => exact ih.trans ih'

/-- One task and all others have as much to do as all. -/
theorem work_eq (hnumbers : (c.tasks.map (·.delivery.number)).Nodup) {task : Task}
    (htask : task ∈ c.tasks) :
    work c.tasks = task.state.left + 1 +
      work (c.tasks.filter fun other => other.delivery.number != task.delivery.number) :=
  work_perm (perm_cons_filter_key hnumbers htask)

/-- The same when the task has come to another state. -/
theorem work_park (hnumbers : (c.tasks.map (·.delivery.number)).Nodup) {task : Task}
    (htask : task ∈ c.tasks) (state : TaskState) (alarm : Nat) :
    work (c.tasks.map fun other => if other.delivery.number = task.delivery.number then
      { other with state := state, alarm := alarm } else other) = state.left + 1 +
        work (c.tasks.filter fun other => other.delivery.number != task.delivery.number) := by
  rw [work_perm ((perm_cons_filter_key hnumbers htask).map _), List.map_cons, if_pos rfl, work]
  congr 2
  refine (List.map_congr_left fun other hother => ?_).trans (List.map_id _)
  exact if_neg (bne_iff_ne.1 (List.mem_filter.1 hother).2)

/-- A turn of a task leaves less to do, and less by two if it may have given the loop a turn. -/
theorem work_taskTurn (hseated : Seated c) (hnumbers : (c.tasks.map (·.delivery.number)).Nodup)
    {n : Nat} (hparty : .task n ∈ c.turns) :
    ∃ c', { c with turns := c.turns.erase (.task n) }.taskTurn n = c' ∧ c'.phase = c.phase ∧
      (work c'.tasks < work c.tasks ∧ (.loop ∈ c'.turns ↔ .loop ∈ c.turns) ∨
        work c'.tasks + 2 ≤ work c.tasks ∧
          (.loop ∈ c'.turns ↔ .loop ∈ c.turns ∨ c.phase = .draining)) := by
  obtain ⟨task, htask, rfl, stint, hdoes, hturn⟩ := hseated.taskTurn hparty
  have hwork := work_eq hnumbers htask
  have hpos := task.state.left_pos
  have hloop : .loop ∈ c.turns.erase (.task task.delivery.number) ↔ .loop ∈ c.turns :=
    List.mem_erase_of_ne (by simp)
  refine ⟨_, rfl, ?_⟩
  rw [hturn, hwork]
  obtain ⟨notes, q, calls, service, deletions, upshot⟩ := stint
  cases upshot with
  | waits state =>
      have hless := hdoes.left_lt rfl
      simp only [perform_waits, work_park hnumbers htask]
      exact ⟨trivial, .inl ⟨by omega, hloop⟩⟩
  | ended ending =>
      simp only [perform_over]
      refine ⟨trivial, .inr ⟨by omega, ?_⟩⟩
      by_cases hphase : c.phase = .draining <;> by_cases hturn : .loop ∈ c.turns <;>
        simp [hphase, hturn, hloop]

/-- Every turn of a task brings all closer to its end. -/
theorem toGo_taskTurn_lt (hseated : Seated c) (hnumbers : (c.tasks.map (·.delivery.number)).Nodup)
    {n : Nat} (hparty : .task n ∈ c.turns) :
    ({ c with turns := c.turns.erase (.task n) }.taskTurn n).toGo < c.toGo := by
  obtain ⟨c', hturn, hphase, ⟨hless, hloop⟩ | ⟨hless, -⟩⟩ := work_taskTurn hseated hnumbers hparty
  · rw [hturn, toGo, toGo, hphase, decide_eq_decide.2 hloop]
    exact Nat.add_lt_add_right hless _
  · -- the loop may have got a turn, which the task has had to spare
    have hwoken := c.phase.left_le (decide (.loop ∈ c'.turns)) (decide (.loop ∈ c.turns))
    rw [hturn, toGo, toGo, hphase]
    omega

/-- Every turn brings a run that has been asked to stop closer to its end. -/
theorem toGo_turn_lt (hasked : c.stopAsked = true) (hseated : Seated c)
    (hnumbers : (c.tasks.map (·.delivery.number)).Nodup) (hidle : c.phase ≠ .idle)
    (hover : c.phase ≠ .stopped) {party : Party} (hparty : party ∈ c.turns) :
    ({ c with turns := c.turns.erase party }.turnOf party).toGo < c.toGo := by
  cases party with
  | loop =>
      obtain ⟨phase, turns, ended, report, news, honward, hrecord⟩ :=
        loopTurn_asked (c := { c with turns := c.turns.erase .loop }) hasked
      have hgone : .loop ∉ c.turns.erase .loop := hseated.nodup.not_mem_erase
      have hleft :
          phase.left (decide (.loop ∈ turns)) < c.phase.left (decide (.loop ∈ c.turns)) := by
        cases honward with
        | rests hphase => exact absurd hphase (not_or_intro hidle hover)
        | begins hphase =>
            simp only at hphase
            simp [hphase, Phase.left]
        | drains hphase =>
            simp only at hphase
            cases hstate : c.phase <;> simp [hstate, Phase.sleeps, Phase.left] at hphase ⊢
        | waits hphase =>
            simp only at hphase
            simp [hphase, hparty, hgone, Phase.left]
        | stops hphase =>
            simp only at hphase
            simp [hphase, hparty, Phase.left]
      rw [turnOf, hrecord]
      exact Nat.add_lt_add_left hleft _
  | task n => exact toGo_taskTurn_lt hseated hnumbers hparty

/-- A run that is over stays so. -/
theorem Move.stopped {c' : Consumer} (hmove : Move c c') (horderly : Orderly c₀ c)
    (hstopped : c.phase = .stopped) : c'.phase = .stopped := by
  obtain ⟨htasks, -⟩ := horderly.closed hstopped
  cases hmove with
  | turn party =>
      cases party with
      | loop => simp only [turnOf, loopTurn, hstopped]
      | task n => simp only [turnOf, taskTurn, htasks, List.find?_nil, hstopped]
  | pass instant => exact hstopped
  | start =>
      unfold Consumer.start
      rw [if_neg (by simp [hstopped])]
      exact hstopped
  | stop =>
      obtain ⟨turns, -, -, hrecord⟩ := rouse_record { c with stopAsked := true }
      rw [Consumer.stop, hrecord]
      exact hstopped
  | send body =>
      obtain ⟨q, turns, -, hrecord⟩ := c.send_record body
      rw [hrecord]
      exact hstopped
  | publish event =>
      obtain ⟨q, turns, news, -, hrecord⟩ := c.publish_record event
      rw [hrecord]
      exact hstopped
  | fail faults => exact hstopped
  | reorder leases => exact hstopped

theorem steps_stopped (horderly : Orderly c₀ c) (hstopped : c.phase = .stopped)
    (limit fuel : Nat) : (steps limit fuel c).phase = .stopped := by
  induction fuel generalizing c with
  | zero => exact hstopped
  | succ fuel ih =>
      cases hstep : c.step? limit with
      | none =>
          rw [steps, hstep]
          exact hstopped
      | some c' =>
          have hmove := move_of_step hstep
          rw [steps, hstep]
          exact ih (horderly.move hmove) (hmove.stopped horderly hstopped)

/-- What a run has yet to do, the passing of time included. -/
def potential (c : Consumer) : Nat := 2 * c.toGo + if c.turns = [] then 1 else 0

theorem potential_lt_of_toGo {c c' : Consumer} (h : c'.toGo < c.toGo) :
    c'.potential < c.potential := by
  unfold potential
  split <;> omega

/-- An alarm that rings leaves less to do. -/
theorem potential_ring_lt {instant : Nat} (hidle : c.turns = [])
    (halarm : c.nextAlarm = some instant) (htoGo : (c.ring instant).toGo = c.toGo) :
    (c.ring instant).potential < c.potential := by
  obtain ⟨alarm, hmem, hrings⟩ := mem_of_nextAlarm halarm
  have hgiven : (c.ring instant).turns ≠ [] := List.ne_nil_of_mem
    (mem_turns_ring.2 (.inr ⟨alarm, hmem, Nat.le_of_eq hrings, rfl⟩))
  rw [potential, potential, if_neg hgiven, if_pos hidle, htoGo]
  exact Nat.lt_succ_self _

/-- When nobody has a turn, the next alarm is that of a task. -/
theorem Closing.exists_alarm {deadline : Nat} (h : Closing deadline c) (hlively : Lively c)
    (hseated : Seated c) (hidle : c.turns = []) (hrunning : c.phase ≠ .stopped) :
    ∃ instant ≤ deadline, c.nextAlarm = some instant := by
  obtain ⟨task, htask⟩ := List.exists_mem_of_ne_nil _ (h.draining hlively hidle hrunning).2
  obtain ⟨wakeAt, hwake, hle⟩ : ∃ wakeAt, task.wakeAt? = some wakeAt ∧ wakeAt ≤ deadline := by
    have hlatest := h.tasks task htask
    unfold Task.wakeAt?
    cases hstate : task.state with
    | ready => exact absurd hstate (hseated.waits hidle htask)
    | handling event outcome wakeAt | deleting ending inTime wakeAt =>
        rw [hstate] at hlatest
        simp only [TaskState.latest] at hlatest
        exact ⟨wakeAt, rfl, by omega⟩
  obtain ⟨instant, hleast, hnext⟩ := exists_nextAlarm (mem_pending.2 ⟨task, htask, rfl, rfl, hwake⟩)
  exact ⟨instant, Nat.le_trans hleast hle, hnext⟩

/-- A loop that waits for the tasks has no alarm. -/
theorem not_mem_pending (hphase : c.phase = .draining) {alarm : Nat × Nat × Party}
    (halarm : alarm ∈ c.pending) : alarm.2.2 ≠ .loop := by
  rcases List.mem_append.1 halarm with hloop | htask
  · rw [loopAlarm, hphase] at hloop
    exact absurd hloop List.not_mem_nil
  · obtain ⟨task, -, htask⟩ := List.mem_filterMap.1 htask
    obtain ⟨wakeAt, -, rfl⟩ := Option.map_eq_some_iff.1 htask
    nofun

/-- A run that has been asked to stop goes on until it is over. -/
theorem Closing.step {deadline limit : Nat} (h : Closing deadline c) (hlively : Lively c)
    (hseated : Seated c) (hnumbers : (c.tasks.map (·.delivery.number)).Nodup)
    (hlimit : deadline < limit) (hrunning : c.phase ≠ .stopped) :
    ∃ c', c.step? limit = some c' ∧ c'.potential < c.potential := by
  unfold step?
  cases hturns : c.turns with
  | cons party turns =>
      have hrest : turns = c.turns.erase party := by rw [hturns, List.erase_cons_head]
      have hless := toGo_turn_lt h.asked hseated hnumbers h.begun hrunning
        (hturns ▸ List.mem_cons_self : party ∈ c.turns)
      rw [← hrest] at hless
      exact ⟨_, rfl, potential_lt_of_toGo hless⟩
  | nil =>
      obtain ⟨instant, hle, hnext⟩ := h.exists_alarm hlively hseated hturns hrunning
      have hphase := (h.draining hlively hturns hrunning).1
      have hloop : .loop ∉ (c.ring instant).turns := by
        rw [mem_turns_ring, hturns]
        rintro (hnone | ⟨other, hother, -, hparty⟩)
        · exact List.not_mem_nil hnone
        · exact not_mem_pending hphase hother hparty
      have htoGo : (c.ring instant).toGo = c.toGo := by
        have hbefore : .loop ∉ c.turns := by
          rw [hturns]
          exact List.not_mem_nil
        show work c.tasks + c.phase.left _ = work c.tasks + c.phase.left _
        rw [decide_eq_false hloop, decide_eq_false hbefore]
      refine ⟨c.ring instant, ?_, potential_ring_lt hturns hnext htoGo⟩
      simp only [hnext, if_pos (Nat.lt_of_le_of_lt hle hlimit)]

/-- By itself such a run comes to its end. -/
theorem PatientRuns.steps_closing {c' : Consumer} (hfresh : c₀.Fresh) (hqueue : c₀.queue.Sound)
    (h : PatientRuns c₀ c) (hrunning : c.isRunning = true) (hafter : PatientRuns c.stop c')
    {limit : Nat} (hlimit : c.now + c.settings.handlerTimeout + c.settings.deleteTimeout < limit)
    {fuel : Nat} (hfuel : c'.potential ≤ fuel) : (steps limit fuel c').phase = .stopped := by
  induction fuel generalizing c' with
  | zero =>
      have hruns := (h.runs.move .stop).trans hafter.runs
      by_contra hover
      obtain ⟨next, -, hless⟩ := (h.closing hfresh hqueue hrunning hafter).step
        (hruns.lively hfresh hqueue) (hruns.seated hfresh hqueue)
        (hruns.orderly hfresh hqueue).books.tasks_nodup hlimit hover
      omega
  | succ fuel ih =>
      have hruns := (h.runs.move .stop).trans hafter.runs
      have horderly := hruns.orderly hfresh hqueue
      by_cases hover : c'.phase = .stopped
      · exact steps_stopped horderly hover limit (fuel + 1)
      obtain ⟨next, hstep, hless⟩ := (h.closing hfresh hqueue hrunning hafter).step
        (hruns.lively hfresh hqueue) (hruns.seated hfresh hqueue) horderly.books.tasks_nodup hlimit
        hover
      rw [steps, hstep]
      exact ih (hafter.of_step hstep) (by omega)

/-- What is left to do is within the steps that a run is given to end. -/
theorem potential_le (c : Consumer) (span : Nat) : c.potential ≤ c.stepBound span := by
  have hwork : ∀ tasks : List Task, work tasks ≤ 4 * tasks.length := by
    intro tasks
    induction tasks with
    | nil => exact Nat.le_refl _
    | cons task rest ih =>
        have hleft := task.state.left_le
        simp only [work, List.length_cons] at ih ⊢
        omega
  have hphase := c.phase.left_le_three (decide (.loop ∈ c.turns))
  have htasks := hwork c.tasks
  have hspan : 2 * (4 * (c.queue.size + c.tasks.length + c.queue.faults.receives + 4)) ≤
      c.stepBound span := Nat.mul_le_mul_right _ (by omega)
  unfold potential toGo
  split <;> omega

/-- A run that has begun can be led to its end. -/
theorem PatientRuns.phase_finish (hfresh : c₀.Fresh) (hqueue : c₀.queue.Sound)
    (h : PatientRuns c₀ c) (hbegun : c.phase ≠ .idle) : c.finish.phase = .stopped := by
  have hstart : c.start = c := if_neg hbegun
  have hstop : c.stop.now = c.now ∧ c.stop.drainBound = c.drainBound := by
    obtain ⟨turns, -, -, hrecord⟩ := rouse_record { c with stopAsked := true }
    rw [stop, hrecord]
    exact ⟨rfl, rfl⟩
  unfold finish
  simp only [hstart, hstop.1, hstop.2]
  by_cases hover : c.phase = .stopped
  · have hmove : Move c c.stop := .stop
    have horderly := h.runs.orderly hfresh hqueue
    exact steps_stopped (horderly.move hmove) (hmove.stopped horderly hover) _ _
  · have hrunning : c.isRunning = true := by simp [isRunning, hbegun, hover]
    refine h.steps_closing hfresh hqueue hrunning .refl ?_ (potential_le _ _)
    unfold drainBound
    omega

/-- A call that is due to end in time has ended so when its task is over. -/
theorem Judged.ended_of_called {s : Settings} {handlers : EventKind → Option Handler}
    {calls : EventKind → Nat} {history trail' : List (Nat × Incident)} {d : Delivery}
    {ending : Ending} (h : Judged s handlers calls history d ending trail') {t : Nat}
    {event : LifecycleEvent} (hcalled : (t, .handlerCalled d event) ∈ trail') :
    ∃ handler n, handlers event.kind = some handler ∧
      CalledAs calls history t d event handler n ∧
        ((handler.reaction n event).delay ≤ s.handlerTimeout →
          (t + (handler.reaction n event).delay,
            .handlerEnded d event (handler.reaction n event).outcome) ∈ trail') := by
  obtain ⟨hfound, hdisposal⟩ := h
  rename_i reaction since found disposal
  have hnot : (t, .handlerCalled d event) ∉ disposal := by
    generalize (s.verdict reaction).removes = removes at hdisposal
    cases hdisposal with
    | left => exact List.not_mem_nil
    | deleted _ _ hi =>
        intro hmem
        rcases List.mem_cons.1 hmem with heq | hmem
        · cases heq
        · obtain ⟨-, rfl⟩ := Prod.mk.inj (List.mem_singleton.1 hmem)
          exact hi
  have hmem := (List.mem_append.1 hcalled).resolve_right hnot
  cases hfound with
  | undecodable | unhandled => cases List.mem_singleton.1 hmem
  | @handled t₀ event₀ handler n reaction hbody hsome hcall hreaction =>
      have hclose : s.close d event₀ reaction ≠ .handlerCalled d event := by
        unfold Settings.close
        split <;> nofun
      rcases List.mem_cons.1 hmem with heq | hlast
      · cases heq
        subst hreaction
        refine ⟨handler, n, hsome, hcall, fun htime => ?_⟩
        have hpatience : s.patience (handler.reaction n event) =
            (handler.reaction n event).delay := Nat.min_eq_left htime
        simp [Settings.close, Settings.answer, htime, hpatience]
      · obtain ⟨-, heq⟩ := Prod.mk.inj (List.mem_singleton.1 hlast)
        exact absurd heq.symm hclose

variable {visibility : Nat}

/--
Draining is bounded.  Whatever a running consumer is doing when it is asked to
stop, and whatever is done to it afterwards: as long as its run lasts, no more
time has passed than a handler and a deletion may take together, and so when
it is over.  It needs nobody to come to its end.  And no handler's call is cut
short: one that ends within its own deadline has ended when it was due.
-/
theorem draining_bounded (hfresh : c₀.Fresh) (hqueue : Queue.Reachable visibility c₀.queue)
    (h : PatientRuns c₀ c) (hrunning : c.isRunning = true) :
    (∀ c', PatientRuns c.stop c' →
      (c'.isRunning = true →
        c'.now ≤ c.now + c.settings.handlerTimeout + c.settings.deleteTimeout) ∧
      (c'.isRunning = false → c'.phase = .stopped ∧
        (∃ t report, (t, .stopped report) ∈ c'.history ∧
          t ≤ c.now + c.settings.handlerTimeout + c.settings.deleteTimeout) ∧
        ∀ t d event, (t, .handlerCalled d event) ∈ c.history →
          ∃ handler n, c.handlers.get event.kind = some handler ∧
            CalledAs c₀.calls c'.history t d event handler n ∧
              ((handler.reaction n event).delay ≤ c.settings.handlerTimeout →
                (t + (handler.reaction n event).delay,
                  .handlerEnded d event (handler.reaction n event).outcome) ∈ c'.history)) ∧
      c'.finish.phase = .stopped) ∧
    PatientRuns c.stop c.finish ∧ c.finish.phase = .stopped := by
  obtain ⟨hbegun, hunfinished⟩ : c.phase ≠ .idle ∧ c.phase ≠ .stopped := by
    simpa [isRunning] using hrunning
  have hstart : c.start = c := if_neg hbegun
  have hfinish : PatientRuns c.stop c.finish := by
    unfold finish
    simp only [hstart]
    exact PatientRuns.refl.of_steps _ _
  refine ⟨fun c' hafter => ?_, hfinish, h.phase_finish hfresh hqueue.sound hbegun⟩
  have hclosing := h.closing hfresh hqueue.sound hrunning hafter
  have hstop : PatientRuns c₀ c.stop := h.prompt .stop c.stop_act.now_eq
  have hpatient : PatientRuns c₀ c' := hstop.trans hafter
  refine ⟨fun hgoes => ?_, fun hover => ?_, ?_⟩
  · refine hclosing.time fun hover => ?_
    simp [isRunning, hover] at hgoes
  · have hstopped : c'.phase = .stopped := by
      by_contra hgoes
      simp [isRunning, hgoes, hclosing.begun] at hover
    refine ⟨hstopped, hclosing.stopped hstopped, fun t d event hcalled => ?_⟩
    have horderly := hpatient.runs.orderly hfresh hqueue.sound
    have hprefix : c.history <+: c'.history :=
      h.runs.history_extends hfresh hqueue.sound
        ((Runs.move .refl .stop).trans hafter.runs)
    have hmem := hprefix.subset hcalled
    -- the task of the delivery is over by now
    have hcounted : ∃ ending, (d, ending) ∈ c'.ended ++ counts c'.history := by
      have hassigned := horderly.books.assigned
      rw [(horderly.closed hstopped).1, List.map_nil, List.nil_append] at hassigned
      obtain ⟨⟨d, ending⟩, hx, rfl⟩ := List.mem_map.1
        (hassigned.mem_iff.2 (horderly.books.mem_received_of_about hmem rfl))
      exact ⟨ending, hx⟩
    obtain ⟨ending, hx⟩ := hcounted
    obtain ⟨handler, n, hsome, hcall, hended⟩ :=
      ((hpatient.runs.judging hfresh hqueue.sound).ended _ hx).ended_of_called
        (mem_trail.2 ⟨hmem, rfl⟩)
    have hbooks := (h.runs.orderly hfresh hqueue.sound).books
    rw [hbooks.settings, hbooks.handlers]
    exact ⟨handler, n, hsome, hcall, fun htime => (mem_trail.1 (hended htime)).1⟩
  · exact hpatient.phase_finish hfresh hqueue.sound hclosing.begun

/-- A consumer whose handler takes its time. -/
private def busy : Consumer where
  handlers := { created := some { reaction := fun _ _ => { delay := 700 } } }
  deleteDelay _ := 20000
  queue := { visibility := 30000 }

/-- A handler is at work when its run is asked to stop, and the deletion after it is too slow. -/
theorem draining_bounded_of_call :
    ∃ c, PatientRuns busy c ∧ c.isRunning = true ∧ c.finish.phase = .stopped ∧
      (∃ t report, (t, .stopped report) ∈ c.finish.history ∧ t ≤ 40000) ∧
      ∃ t d event, (t, .handlerCalled d event) ∈ c.history ∧
        (t + 700, .handlerEnded d event .ok) ∈ c.finish.history := by
  have hsent : PatientRuns busy _ := PatientRuns.refl.prompt (.publish ⟨.created, .timed 0 0⟩) rfl
  have hstarted := hsent.prompt .start rfl
  obtain ⟨c, hruns, hrunning, hnow, hcalled⟩ : ∃ c, PatientRuns busy c ∧ c.isRunning = true ∧
      c.now = 0 ∧ (called c.history).map (·.2.kind) = [.created] :=
    ⟨_, hstarted.of_steps 1 4, by decide +kernel, by decide +kernel, by decide +kernel⟩
  have hfresh : busy.Fresh := ⟨rfl, rfl, rfl, rfl, rfl, rfl⟩
  have hbooks := (hruns.runs.orderly hfresh (Queue.Reachable.sound .empty)).books
  obtain ⟨hafter, hfinish, hstopped⟩ :=
    draining_bounded hfresh .empty hruns hrunning
  obtain ⟨-, hover, -⟩ := hafter c.finish hfinish
  obtain ⟨-, ⟨t, report, hreport, ht⟩, hcalls⟩ := hover (by simp [isRunning, hstopped])
  rw [hnow, hbooks.settings] at ht
  refine ⟨c, hruns, hrunning, hstopped, ⟨t, report, hreport, ht⟩, ?_⟩
  obtain ⟨⟨d, event⟩, hmem, hkind⟩ := List.mem_map.1 (hcalled ▸ List.mem_singleton_self _)
  obtain ⟨t, hcall⟩ := mem_called.1 hmem
  obtain ⟨handler, n, hhandler, -, hended⟩ := hcalls t d event hcall
  refine ⟨t, d, event, hcall, ?_⟩
  simp only at hkind
  rw [hbooks.handlers, hkind] at hhandler
  obtain rfl := Option.some.inj hhandler
  rw [hbooks.settings] at hended
  exact hended (show 700 ≤ 30000 by decide)

end ProductCatalog.Consumer
