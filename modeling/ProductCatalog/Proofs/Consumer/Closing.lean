import ProductCatalog.Proofs.Consumer.Exclusion
import ProductCatalog.Proofs.Consumer.Liveness

/-!
# Deadlines of a run that closes

A run that is asked to stop receives no more.  Its loop goes on at once,
whatever it has been waiting for, and then waits for the tasks; every task
has its deadlines, so that none outlives the time of a handler and of a
deletion together.

## Main results

* `loopTurn_asked` — all that a turn of the loop does once it is asked to stop.
* `Does.latest_le` — a turn leaves a task no more time than it had.
* `PatientRuns.closing` — no task outlives its deadlines, and neither does a
  run that has been asked to stop.
-/

namespace ProductCatalog.Consumer

variable {c₀ c : Consumer}

/-! ## A run that has been asked to stop -/

/-- What a turn of the loop does when it has been asked to stop. -/
inductive Onward (c : Consumer) : Phase → List Party → List (Nat × Incident) → Prop
  | rests {news} (h : c.phase = .idle ∨ c.phase = .stopped) : Onward c c.phase c.turns news
  | begins {news} (h : c.phase = .starting) : Onward c .polling (.loop :: c.turns) news
  | drains {news} (h : c.phase = .polling ∨ c.phase.sleeps = true) :
      Onward c .draining (.loop :: c.turns) news
  | waits {news} (h : c.phase = .draining) (htasks : c.tasks ≠ []) :
      Onward c .draining c.turns news
  | stops {news report} (h : c.phase = .draining) (htasks : c.tasks = [])
      (hnews : (c.now, .stopped report) ∈ news) : Onward c .stopped c.turns news

/-- A loop that has been asked to stop leaves the tasks and the queue alone. -/
theorem loopTurn_asked (hasked : c.stopAsked = true) :
    ∃ phase turns ended report news, Onward c phase turns news ∧ c.loopTurn = { c with
      phase := phase
      turns := turns
      ended := ended
      report := report
      history := c.history ++ news } := by
  -- what has ended is counted before some of the turns
  let counted := c.ended.map fun x => (c.now, Incident.counted x.1 x.2)
  let report := (c.ended.map (·.2)).foldl Report.count c.report
  have hcounted : c.countEnded = { c with
      ended := []
      report := report
      history := c.history ++ counted } := c.countEnded_record
  have hrest : c = { c with history := c.history ++ [] } := by simp only [List.append_nil]
  unfold loopTurn
  cases hphase : c.phase with
  | idle =>
      have hrests : Onward c c.phase c.turns [] := .rests (.inl hphase)
      exact ⟨c.phase, c.turns, c.ended, c.report, [], hrests, hrest⟩
  | stopped =>
      have hrests : Onward c c.phase c.turns [] := .rests (.inr hphase)
      exact ⟨c.phase, c.turns, c.ended, c.report, [], hrests, hrest⟩
  | starting => exact ⟨_, _, c.ended, c.report, [(c.now, .began)], .begins hphase, rfl⟩
  | polling =>
      simp only [hcounted]
      rw [if_pos hasked]
      refine ⟨_, _, [], report, counted ++ [(c.now, .draining (c.tasks.length + 0))],
        .drains (.inl hphase), ?_⟩
      rw [← List.append_assoc]
      rfl
  | receiving poll | pausing wakeAt =>
      simp only
      rw [if_pos hasked]
      exact ⟨_, _, c.ended, c.report, [(c.now, .draining (c.tasks.length + c.ended.length))],
        .drains (.inr (by rw [hphase]; rfl)), rfl⟩
  | draining =>
      simp only [hcounted]
      split
      · rename_i hnone
        refine ⟨_, c.turns, [], report, counted ++ [(c.now, .stopped report)],
          .stops hphase (List.isEmpty_iff.1 hnone)
            (List.mem_append_right _ List.mem_cons_self), ?_⟩
        rw [← List.append_assoc]
        rfl
      · rename_i hleft
        exact ⟨.draining, c.turns, [], report, counted,
          .waits hphase fun hnone => hleft (List.isEmpty_iff.2 hnone), by rw [hphase]⟩

/-- A run that has been asked to stop, and that has to be over by an instant. -/
structure Closing (deadline : Nat) (c : Consumer) : Prop where
  asked : c.stopAsked = true
  begun : c.phase ≠ .idle
  tasks : ∀ task ∈ c.tasks, task.state.latest c.settings c.now ≤ deadline
  time : c.phase ≠ .stopped → c.now ≤ deadline
  stopped : c.phase = .stopped → ∃ t report, (t, .stopped report) ∈ c.history ∧ t ≤ deadline

/-- A turn leaves a task no more time than it had. -/
theorem Does.latest_le {task : Task} {stint : Stint} {state : TaskState} (h : Does c task stint)
    (hwaits : stint.upshot = .waits state) :
    state.latest c.settings c.now ≤ task.state.latest c.settings c.now := by
  have hparting : ∀ {ending notes q' upshot},
      Parting c.settings c.now c.queue task.delivery ending notes q' upshot →
        upshot = .waits state →
          state.latest c.settings c.now ≤ c.now + c.settings.deleteTimeout := by
    intro _ _ _ _ hparting hupshot
    cases hparting with
    | waits =>
        cases hupshot
        simp only [TaskState.latest]
        omega
    | ended => cases hupshot
  have hreply : ∀ {event outcome notes q' upshot},
      Reply c.settings c.now c.queue task.delivery event outcome notes q' upshot →
        upshot = .waits state →
          state.latest c.settings c.now ≤ c.now + c.settings.deleteTimeout := by
    intro _ _ _ _ _ hreply hupshot
    cases hreply with
    | succeeded h => exact hparting h hupshot
    | failed | panicked | timedOut => cases hupshot
  cases h with
  | undecodable hstate _ h | unhandled hstate _ _ h =>
      have hle := hparting h hwaits
      rw [hstate]
      simp only [TaskState.latest] at hle ⊢
      omega
  | @called _ _ reaction hstate =>
      have hle : c.settings.patience reaction ≤ c.settings.handlerTimeout := Nat.min_le_right ..
      obtain rfl := Upshot.waits.inj hwaits
      rw [hstate]
      simp only [TaskState.latest]
      omega
  | answered hstate _ _ _ _ h =>
      have hle := hreply h hwaits
      rw [hstate]
      simp only [TaskState.latest] at hle ⊢
      omega
  | resumed hstate h =>
      have hle := hreply h hwaits
      rw [hstate]
      simp only [TaskState.latest] at hle ⊢
      omega
  | removed => cases hwaits

/-- Without turns every task waits. -/
theorem Seated.waits {task : Task} (h : Seated c) (hidle : c.turns = []) (htask : task ∈ c.tasks) :
    task.state ≠ .ready := by
  intro hready
  have hturn := h.ready task htask hready
  rw [hidle] at hturn
  exact absurd hturn List.not_mem_nil

namespace Closing

variable {deadline : Nat} {c' : Consumer}

/-- More turns, and more said in the history, change nothing. -/
theorem given (h : Closing deadline c) (q : Queue) (turns : List Party)
    (news : List (Nat × Incident)) :
    Closing deadline { c with queue := q, turns := turns, history := c.history ++ news } :=
  { h with
    stopped := by
      intro hstopped
      obtain ⟨t, report, hmem, ht⟩ := h.stopped hstopped
      exact ⟨t, report, List.mem_append_left _ hmem, ht⟩ }

theorem loopTurn (h : Closing deadline c) : Closing deadline c.loopTurn := by
  obtain ⟨phase, turns, ended, report, news, honward, hrecord⟩ := loopTurn_asked h.asked
  rw [hrecord]
  have hstays : ∀ phase : Phase, phase ≠ .idle → phase ≠ .stopped → c.phase ≠ .stopped →
      Closing deadline { c with
        phase := phase
        turns := turns
        ended := ended
        report := report
        history := c.history ++ news } :=
    fun phase hidle hrunning hbefore =>
      ⟨h.asked, hidle, h.tasks, fun _ => h.time hbefore, fun heq => absurd heq hrunning⟩
  cases honward with
  | rests => exact { h.given c.queue c.turns news with }
  | begins hphase => exact hstays _ nofun nofun (by rw [hphase]; nofun)
  | drains hphase =>
      refine hstays _ nofun nofun ?_
      rcases hphase with hphase | hphase
      · rw [hphase]
        nofun
      · intro hstopped
        rw [hstopped] at hphase
        cases hphase
  | waits hphase => exact hstays _ nofun nofun (by rw [hphase]; nofun)
  | stops hphase _ hnews =>
      refine ⟨h.asked, nofun, h.tasks, fun hrunning => absurd rfl hrunning, fun _ => ?_⟩
      exact ⟨c.now, _, List.mem_append_right _ hnews, h.time (by rw [hphase]; nofun)⟩

theorem stint {task : Task} {stint : Stint} (h : Closing deadline c) (htask : task ∈ c.tasks)
    (hdoes : Does c task stint) (turns : List Party) :
    Closing deadline ({ c with turns := turns }.perform task stint) := by
  have hgiven := h.given stint.queue turns (stint.notes.map (c.now, ·))
  obtain ⟨notes, q, calls, service, deletions, upshot⟩ := stint
  cases upshot with
  | waits state =>
      rw [perform_waits]
      refine { hgiven with tasks := fun other hother => ?_ }
      obtain ⟨before, hbefore, rfl⟩ := List.mem_map.1 hother
      split
      · exact Nat.le_trans (hdoes.latest_le rfl) (h.tasks task htask)
      · exact h.tasks before hbefore
  | ended ending =>
      rw [perform_over]
      exact { hgiven with
        tasks := fun other hother => h.tasks other (List.mem_of_mem_filter hother) }

/-- A loop without a turn waits for the tasks. -/
theorem draining (h : Closing deadline c) (hlively : Lively c) (hidle : c.turns = [])
    (hrunning : c.phase ≠ .stopped) : c.phase = .draining ∧ c.tasks ≠ [] := by
  have hrests := hlively.resolve_left (by rw [hidle]; exact List.not_mem_nil)
  rw [h.asked] at hrests
  cases hphase : c.phase with
  | idle => exact absurd hphase h.begun
  | stopped => exact absurd hphase hrunning
  | draining =>
      rw [hphase] at hrests
      exact ⟨rfl, hrests⟩
  | _ =>
      rw [hphase] at hrests
      cases hrests

/-- Time passes only while every task waits, and no further than to the next alarm. -/
theorem ring (h : Closing deadline c) (hlively : Lively c) (hseated : Seated c) {instant : Nat}
    (halarms : ∀ alarm ∈ c.pending, instant ≤ alarm.1)
    (hclock : (c.ring instant).now ≠ c.now → c.turns = []) : Closing deadline (c.ring instant) := by
  by_cases hnow : max c.now instant = c.now
  · refine ⟨h.asked, h.begun, ?_, ?_, h.stopped⟩
    · show ∀ task ∈ c.tasks, task.state.latest c.settings (max c.now instant) ≤ deadline
      rw [hnow]
      exact h.tasks
    · show c.phase ≠ .stopped → max c.now instant ≤ deadline
      rw [hnow]
      exact h.time
  have hidle : c.turns = [] := hclock hnow
  have hlatest : ∀ task ∈ c.tasks,
      task.state.latest c.settings (max c.now instant) ≤ deadline := by
    intro task htask
    have hwake : ∀ wakeAt, task.wakeAt? = some wakeAt → instant ≤ wakeAt := fun wakeAt hwake =>
      halarms (wakeAt, task.alarm, .task task.delivery.number)
        (mem_pending.2 ⟨task, htask, rfl, rfl, hwake⟩)
    rw [Task.latest_of_pass (hseated.waits hidle htask) hwake]
    exact h.tasks task htask
  refine ⟨h.asked, h.begun, hlatest, fun hrunning => ?_, h.stopped⟩
  obtain ⟨task, htask⟩ := List.exists_mem_of_ne_nil _ (h.draining hlively hidle hrunning).2
  exact Nat.le_trans (TaskState.le_latest ..) (hlatest task htask)

theorem move (h : Closing deadline c) (hlively : Lively c) (hseated : Seated c)
    (hmove : Move c c') (hclock : c'.now ≠ c.now → c.turns = []) : Closing deadline c' := by
  cases hmove with
  | turn party hparty =>
      cases party with
      | loop =>
          have herased : Closing deadline { c with turns := c.turns.erase .loop } := { h with }
          exact herased.loopTurn
      | task n =>
          obtain ⟨task, htask, rfl, stint, hdoes, hturn⟩ := hseated.taskTurn hparty
          rw [turnOf, hturn]
          exact h.stint htask hdoes _
  | pass instant halarms => exact h.ring hlively hseated halarms hclock
  | start =>
      unfold Consumer.start
      rw [if_neg h.begun]
      exact h
  | stop =>
      obtain ⟨turns, -, -, hrecord⟩ := rouse_record { c with stopAsked := true }
      rw [stop, hrecord]
      exact { h with asked := rfl }
  | send body =>
      obtain ⟨q, turns, -, hrecord⟩ := c.send_record body
      rw [hrecord]
      exact { h with }
  | publish event =>
      obtain ⟨q, turns, news, -, hrecord⟩ := c.publish_record event
      rw [hrecord]
      exact h.given q turns news
  | fail faults => exact { h with }
  | reorder leases => exact { h with }

end Closing

/-- A task that waits has no more time than its deadlines allow. -/
theorem Orderly.latest_le {task : Task} (h : Orderly c₀ c) (htask : task ∈ c.tasks) :
    task.state.latest c.settings c.now ≤
      c.now + c.settings.handlerTimeout + c.settings.deleteTimeout := by
  obtain ⟨leg, hfits, -⟩ := h.waiting task htask
  rw [h.books.settings]
  cases hstate : task.state with
  | ready => exact Nat.le_refl _
  | handling event outcome wakeAt | deleting ending inTime wakeAt =>
      rw [hstate] at hfits
      cases hfits
      simp only [TaskState.latest]
      omega

/-- What a run that is asked to stop comes to is over in time. -/
theorem PatientRuns.closing {c' : Consumer} (hfresh : c₀.Fresh) (hqueue : c₀.queue.Sound)
    (h : PatientRuns c₀ c) (hrunning : c.isRunning = true) (hafter : PatientRuns c.stop c') :
    Closing (c.now + c.settings.handlerTimeout + c.settings.deleteTimeout) c' := by
  have hstopped : PatientRuns c₀ c.stop := h.prompt .stop c.stop_act.now_eq
  induction hafter with
  | refl =>
      obtain ⟨turns, -, -, hrecord⟩ := rouse_record { c with stopAsked := true }
      obtain ⟨hidle, hover⟩ : c.phase ≠ .idle ∧ c.phase ≠ .stopped := by
        simpa [isRunning] using hrunning
      rw [stop, hrecord]
      refine ⟨rfl, hidle, ?_, fun _ => ?_, fun heq => absurd heq hover⟩
      · exact fun task htask => (h.runs.orderly hfresh hqueue).latest_le htask
      · show c.now ≤ _
        omega
  | @move c₁ c₂ hbefore hmove hclock ih =>
      have hruns := hstopped.runs.trans hbefore.runs
      exact ih.move (hruns.lively hfresh hqueue) (hruns.seated hfresh hqueue) hmove hclock

end ProductCatalog.Consumer
