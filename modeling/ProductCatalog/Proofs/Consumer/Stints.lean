import ProductCatalog.Proofs.Consumer.Course
import ProductCatalog.Proofs.Consumer.Moves
import ProductCatalog.Proofs.Queue.Conservation

/-!
# What a task does in one turn

A turn of a task is a *stint*: the task notes some incidents, may touch the
queue and the counts, and then waits or is over.  There are few stints, and
each says all that a turn does.  Whatever else happens to a consumer is
*aside* from the running tasks: the history tells nothing new of any
delivery's task, and tasks begin at most.

## Main results

* `taskTurn_stint` — every turn of a task is a stint.
* `Aside.loopTurn`, `send`, `publish`, `start`, `stop` — everything else.
-/

namespace ProductCatalog.Consumer

open Queue (Delivery)

/-! ## Stints -/

/-- Where a task stands after a turn. -/
inductive Upshot
  | waits (state : TaskState)
  | ended (ending : Ending)

/-- All that a turn of a task does. -/
structure Stint where
  notes : List Incident
  queue : Queue
  calls : EventKind → Nat
  service : NotificationService
  deletions : Nat
  upshot : Upshot

/-- Lets a task do what a stint says. -/
def perform (c : Consumer) (task : Task) (stint : Stint) : Consumer :=
  let c := { c with
    queue := stint.queue
    calls := stint.calls
    service := stint.service
    deletions := stint.deletions
    history := c.history ++ stint.notes.map (c.now, ·) }
  match stint.upshot with
  | .waits state => c.park task state
  | .ended ending => c.endTask task ending

/-- What comes of a reaction in the time that handlers have, if anything. -/
def Settings.answer (s : Settings) (r : Reaction) : Option Outcome :=
  if r.delay ≤ s.handlerTimeout then some r.outcome else none

/-- How long a handler with a reaction is waited for. -/
def Settings.patience (s : Settings) (r : Reaction) : Nat := min r.delay s.handlerTimeout

/-- One call more of a handler. -/
def countCall (calls : EventKind → Nat) (kind : EventKind) : EventKind → Nat :=
  fun other => if other = kind then calls other + 1 else calls other

/-- How the deletion of a delivery's message ends, and what the queue is then. -/
inductive Removal (q : Queue) (d : Delivery) : Incident → Queue → Prop
  | deleted {q'} (h : q.delete d.token = (q', .ok ())) : Removal q d (.deleted d) q'
  | refused {q' error} (h : q.delete d.token = (q', .error error)) :
      Removal q d (.deleteFailed d error) q'
  | givenUp : Removal q d (.deleteTimedOut d) q

section

variable (s : Settings) (now : Nat) (q : Queue) (d : Delivery)

/-- What a task does that has dealt with its message for good. -/
inductive Parting (ending : Ending) : List Incident → Queue → Upshot → Prop
  | waits {inTime wait} (hpos : 0 < wait) (hwait : wait ≤ s.deleteTimeout) :
      Parting ending [.deleteCalled d] q (.waits (.deleting ending inTime (now + wait)))
  | ended {i q'} (h : Removal q d i q') : Parting ending [.deleteCalled d, i] q' (.ended ending)

/-- What a task does whose handler has come to an outcome, or to none in time. -/
inductive Reply (event : LifecycleEvent) :
    Option Outcome → List Incident → Queue → Upshot → Prop
  | succeeded {notes q' upshot} (h : Parting s now q d .completed notes q' upshot) :
      Reply event (some .ok) (.handlerEnded d event .ok :: notes) q' upshot
  | failed {reason} :
      Reply event (some (.failed reason)) [.handlerEnded d event (.failed reason)] q
        (.ended .redelivered)
  | panicked : Reply event (some .panicked) [.handlerEnded d event .panicked] q (.ended .crashed)
  | timedOut : Reply event none [.handlerTimedOut d event] q (.ended .redelivered)

end

/-- The stints of a task in its state. -/
inductive Does (c : Consumer) (task : Task) : Stint → Prop
  | undecodable {error notes q deletions upshot} (hstate : task.state = .ready)
      (hbody : decode task.delivery.message.body = .error error)
      (h : Parting c.settings c.now c.queue task.delivery .discarded notes q upshot) :
      Does c task
        ⟨.undecodable task.delivery error :: notes, q, c.calls, c.service, deletions, upshot⟩
  | unhandled {event notes q deletions upshot} (hstate : task.state = .ready)
      (hbody : decode task.delivery.message.body = .ok event)
      (hnone : c.handlers.get event.kind = none)
      (h : Parting c.settings c.now c.queue task.delivery .discarded notes q upshot) :
      Does c task
        ⟨.unhandled task.delivery event :: notes, q, c.calls, c.service, deletions, upshot⟩
  | called {event handler reaction} (hstate : task.state = .ready)
      (hbody : decode task.delivery.message.body = .ok event)
      (hsome : c.handlers.get event.kind = some handler)
      (hreaction : handler.reaction (c.calls event.kind) event = reaction)
      (hpos : 0 < c.settings.patience reaction) :
      Does c task
        ⟨.handlerCalled task.delivery event :: (handler.report event).map .told, c.queue,
          countCall c.calls event.kind, handler.effect event c.service, c.deletions,
          .waits (.handling event (c.settings.answer reaction)
            (c.now + c.settings.patience reaction))⟩
  | answered {event handler reaction notes q deletions upshot} (hstate : task.state = .ready)
      (hbody : decode task.delivery.message.body = .ok event)
      (hsome : c.handlers.get event.kind = some handler)
      (hreaction : handler.reaction (c.calls event.kind) event = reaction)
      (hzero : c.settings.patience reaction = 0)
      (h : Reply c.settings c.now c.queue task.delivery event (c.settings.answer reaction) notes q
        upshot) :
      Does c task
        ⟨.handlerCalled task.delivery event :: ((handler.report event).map .told ++ notes), q,
          countCall c.calls event.kind, handler.effect event c.service, deletions, upshot⟩
  | resumed {event outcome wakeAt notes q deletions upshot}
      (hstate : task.state = .handling event outcome wakeAt)
      (h : Reply c.settings c.now c.queue task.delivery event outcome notes q upshot) :
      Does c task ⟨notes, q, c.calls, c.service, deletions, upshot⟩
  | removed {ending inTime wakeAt i q deletions}
      (hstate : task.state = .deleting ending inTime wakeAt)
      (h : Removal c.queue task.delivery i q) :
      Does c task ⟨[i], q, c.calls, c.service, deletions, .ended ending⟩

/-- How many turns at most a task in a state has yet to take. -/
def TaskState.left : TaskState → Nat
  | .ready => 3
  | .handling .. => 2
  | .deleting .. => 1

theorem TaskState.left_pos (state : TaskState) : 0 < state.left := by
  cases state <;> simp [left]

theorem TaskState.left_le (state : TaskState) : state.left ≤ 3 := by
  cases state <;> simp [left]

variable (c : Consumer) (task : Task)

theorem wakeLoop_record :
    c.wakeLoop = { c with turns := if .loop ∈ c.turns then c.turns else c.turns ++ [.loop] } := by
  unfold wakeLoop
  split <;> rfl

section

variable (notes : List Incident) (q : Queue) (calls : EventKind → Nat)
  (service : NotificationService) (deletions : Nat)

theorem perform_waits (state : TaskState) :
    c.perform task ⟨notes, q, calls, service, deletions, .waits state⟩ =
      { c with
        queue := q
        calls := calls
        service := service
        deletions := deletions
        history := c.history ++ notes.map (c.now, ·)
        alarms := c.alarms + 1
        tasks := c.tasks.map fun other =>
          if other.delivery.number = task.delivery.number then
            { other with state := state, alarm := c.alarms }
          else other } :=
  rfl

theorem perform_over (ending : Ending) :
    c.perform task ⟨notes, q, calls, service, deletions, .ended ending⟩ =
      { c with
        queue := q
        calls := calls
        service := service
        deletions := deletions
        history := c.history ++ notes.map (c.now, ·)
        tasks := c.tasks.filter fun other => other.delivery.number != task.delivery.number
        ended := c.ended ++ [(task.delivery, ending)]
        turns :=
          if c.phase = .draining ∧ .loop ∉ c.turns then c.turns ++ [.loop] else c.turns } := by
  simp only [perform, endTask, wakeLoop_record]
  by_cases hphase : c.phase = .draining <;> by_cases hloop : .loop ∈ c.turns <;>
    simp [hphase, hloop]

/-- A stint leaves the loop, the clock and the settings alone. -/
theorem perform_record (stint : Stint) :
    ∃ alarms tasks ended turns, c.perform task stint = { c with
      queue := stint.queue
      calls := stint.calls
      service := stint.service
      deletions := stint.deletions
      history := c.history ++ stint.notes.map (c.now, ·)
      alarms := alarms
      tasks := tasks
      ended := ended
      turns := turns } := by
  obtain ⟨notes, q, calls, service, deletions, upshot⟩ := stint
  cases upshot with
  | waits state =>
      exact ⟨_, _, c.ended, c.turns, perform_waits c task notes q calls service deletions state⟩
  | ended ending =>
      exact ⟨c.alarms, _, _, _, perform_over c task notes q calls service deletions ending⟩

/-- What has been noted before a stint is the first that the stint notes. -/
theorem perform_note (i : Incident) (upshot : Upshot) :
    (c.note i).perform task ⟨notes, q, calls, service, deletions, upshot⟩ =
      c.perform task ⟨i :: notes, q, calls, service, deletions, upshot⟩ := by
  simp only [perform, note, List.map_cons, List.append_assoc, List.cons_append, List.nil_append]

end

theorem park_perform (state : TaskState) :
    c.park task state =
      c.perform task ⟨[], c.queue, c.calls, c.service, c.deletions, .waits state⟩ := by
  simp only [perform, List.map_nil, List.append_nil]

theorem finishDelete_perform (ending : Ending) (inTime : Bool) :
    ∃ i q, Removal c.queue task.delivery i q ∧
      c.finishDelete task ending inTime =
        c.perform task ⟨[i], q, c.calls, c.service, c.deletions, .ended ending⟩ := by
  cases inTime with
  | false => exact ⟨_, _, .givenUp, rfl⟩
  | true =>
      simp only [finishDelete, if_true]
      split
      · rename_i q hdelete
        exact ⟨_, q, .deleted hdelete, rfl⟩
      · rename_i q error hdelete
        exact ⟨_, q, .refused hdelete, rfl⟩

theorem beginDelete_perform (ending : Ending) :
    ∃ notes q upshot,
      Parting c.settings c.now c.queue task.delivery ending notes q upshot ∧
        c.beginDelete task ending =
          c.perform task ⟨notes, q, c.calls, c.service, c.deletions + 1, upshot⟩ := by
  have hle := Nat.min_le_right (c.deleteDelay c.deletions) c.settings.deleteTimeout
  simp only [beginDelete, settings_note]
  cases hwait : min (c.deleteDelay c.deletions) c.settings.deleteTimeout with
  | zero =>
      obtain ⟨i, q, hremoval, hfinish⟩ := finishDelete_perform ({ c with
        deletions := c.deletions + 1 }.note (.deleteCalled task.delivery)) task ending
          (decide (c.deleteDelay c.deletions ≤ c.settings.deleteTimeout))
      exact ⟨_, q, _, .ended hremoval, hfinish.trans (perform_note ..)⟩
  | succ wait =>
      rw [hwait] at hle
      exact ⟨_, _, _, .waits (Nat.succ_pos wait) hle, rfl⟩

theorem finishHandling_perform (event : LifecycleEvent) (outcome : Option Outcome) :
    ∃ notes q deletions upshot,
      Reply c.settings c.now c.queue task.delivery event outcome notes q upshot ∧
        c.finishHandling task event outcome =
          c.perform task ⟨notes, q, c.calls, c.service, deletions, upshot⟩ := by
  match outcome with
  | none => exact ⟨_, _, c.deletions, _, .timedOut, rfl⟩
  | some (.failed reason) => exact ⟨_, _, c.deletions, _, .failed, rfl⟩
  | some .panicked => exact ⟨_, _, c.deletions, _, .panicked, rfl⟩
  | some .ok =>
      obtain ⟨notes, q, upshot, hparting, hdelete⟩ :=
        (c.note (.handlerEnded task.delivery event .ok)).beginDelete_perform task .completed
      exact ⟨_, q, _, upshot, .succeeded hparting, hdelete.trans (perform_note ..)⟩

/-- What a handler tells the log is noted before all that follows. -/
private theorem perform_tell (entries : List LogEntry) (c : Consumer) (notes : List Incident)
    (q : Queue) (calls : EventKind → Nat) (service : NotificationService) (deletions : Nat)
    (upshot : Upshot) :
    (entries.foldl (fun c entry => c.note (.told entry)) c).perform task
        ⟨notes, q, calls, service, deletions, upshot⟩ =
      c.perform task ⟨entries.map .told ++ notes, q, calls, service, deletions, upshot⟩ := by
  induction entries generalizing c with
  | nil => rfl
  | cons entry rest ih => exact (ih (c.note (.told entry))).trans (perform_note ..)

/-- Telling the log touches nothing that a task goes by. -/
private theorem tell_eq (entries : List LogEntry) (c : Consumer) :
    let c' := entries.foldl (fun c entry => c.note (.told entry)) c
    c'.settings = c.settings ∧ c'.now = c.now ∧ c'.queue = c.queue ∧ c'.calls = c.calls ∧
      c'.service = c.service ∧ c'.deletions = c.deletions := by
  induction entries generalizing c with
  | nil => exact ⟨rfl, rfl, rfl, rfl, rfl, rfl⟩
  | cons entry rest ih => exact ih (c.note (.told entry))

theorem callHandler_perform (event : LifecycleEvent) (handler : Handler)
    (hstate : task.state = .ready) (hbody : decode task.delivery.message.body = .ok event)
    (hsome : c.handlers.get event.kind = some handler) :
    ∃ stint, Does c task stint ∧ c.callHandler task event handler = c.perform task stint := by
  unfold callHandler
  simp only
  generalize hreaction : handler.reaction (c.calls event.kind) event = reaction
  -- what the handler tells the log comes between its call and all that follows
  have hperform := perform_tell task (handler.report event) ({ c with
    calls := fun kind => if kind = event.kind then c.calls kind + 1 else c.calls kind
    service := handler.effect event c.service }.note (.handlerCalled task.delivery event))
  have hsame := tell_eq (handler.report event) ({ c with
    calls := fun kind => if kind = event.kind then c.calls kind + 1 else c.calls kind
    service := handler.effect event c.service }.note (.handlerCalled task.delivery event))
  revert hperform hsame
  generalize (handler.report event).foldl
    (fun (c : Consumer) (entry : LogEntry) => c.note (.told entry)) _ = c'
  rintro hperform ⟨hsettings, hnow, hqueue, hcalls, hservice, hdeletions⟩
  change c'.settings = c.settings at hsettings
  change c'.now = c.now at hnow
  change c'.queue = c.queue at hqueue
  rw [hsettings, hnow]
  cases hwait : min reaction.delay c.settings.handlerTimeout with
  | zero =>
      obtain ⟨notes, q, deletions, upshot, hreply, hfinish⟩ :=
        c'.finishHandling_perform task event (c.settings.answer reaction)
      rw [hsettings, hnow, hqueue] at hreply
      rw [hcalls, hservice] at hfinish
      refine ⟨⟨_, q, _, _, deletions, upshot⟩,
        .answered hstate hbody hsome hreaction hwait hreply, ?_⟩
      exact hfinish.trans ((hperform ..).trans (perform_note ..))
  | succ wait =>
      have hpatience : c.settings.patience reaction = wait + 1 := hwait
      have hparked := c'.park_perform task (.handling event (c.settings.answer reaction)
        (c.now + (wait + 1)))
      rw [hqueue, hcalls, hservice, hdeletions, hperform, List.append_nil, perform_note] at hparked
      refine ⟨_, .called hstate hbody hsome hreaction (by omega), ?_⟩
      rw [hpatience]
      exact hparked

theorem process_perform (hstate : task.state = .ready) :
    ∃ stint, Does c task stint ∧ c.process task = c.perform task stint := by
  unfold process
  split
  · rename_i error hbody
    obtain ⟨notes, q, upshot, hparting, hdelete⟩ :=
      (c.note (.undecodable task.delivery error)).beginDelete_perform task .discarded
    exact ⟨_, .undecodable hstate hbody hparting, hdelete.trans (perform_note ..)⟩
  · rename_i event hbody
    split
    · rename_i hnone
      obtain ⟨notes, q, upshot, hparting, hdelete⟩ :=
        (c.note (.unhandled task.delivery event)).beginDelete_perform task .discarded
      exact ⟨_, .unhandled hstate hbody hnone hparting, hdelete.trans (perform_note ..)⟩
    · rename_i handler hsome
      exact c.callHandler_perform task event handler hstate hbody hsome

variable {c task}

/-- Every turn of a task is a stint. -/
theorem taskTurn_stint {delivery : Nat}
    (hfind : c.tasks.find? (·.delivery.number = delivery) = some task) :
    ∃ stint, Does c task stint ∧ c.taskTurn delivery = c.perform task stint := by
  unfold taskTurn
  rw [hfind]
  simp only
  cases hstate : task.state with
  | ready => exact c.process_perform task hstate
  | handling event outcome wakeAt =>
      obtain ⟨notes, q, deletions, upshot, hreply, hfinish⟩ :=
        c.finishHandling_perform task event outcome
      exact ⟨_, .resumed hstate hreply, hfinish⟩
  | deleting ending inTime wakeAt =>
      obtain ⟨i, q, hremoval, hfinish⟩ := c.finishDelete_perform task ending inTime
      exact ⟨_, .removed hstate hremoval, hfinish⟩

namespace Does

variable {stint : Stint}

/-- It does not matter for a stint which turns are given out. -/
theorem of_turns {turns : List Party} (h : Does { c with turns := turns } task stint) :
    Does c task stint := by
  cases h with
  | undecodable hstate hbody h => exact .undecodable hstate hbody h
  | unhandled hstate hbody hnone h => exact .unhandled hstate hbody hnone h
  | called hstate hbody hsome hreaction hpos => exact .called hstate hbody hsome hreaction hpos
  | answered hstate hbody hsome hreaction hzero h =>
      exact .answered hstate hbody hsome hreaction hzero h
  | resumed hstate h => exact .resumed hstate h
  | removed hstate h => exact .removed hstate h

/-- A task that waits has got further. -/
theorem left_lt {state : TaskState} (h : Does c task stint) (hwaits : stint.upshot = .waits state) :
    state.left < task.state.left := by
  have hparting : ∀ {s now q d ending notes q' upshot},
      Parting s now q d ending notes q' upshot → upshot = .waits state → state.left = 1 := by
    intro _ _ _ _ _ _ _ _ hparting hupshot
    cases hparting with
    | waits => cases hupshot; rfl
    | ended => cases hupshot
  have hreply : ∀ {s now q d event outcome notes q' upshot},
      Reply s now q d event outcome notes q' upshot → upshot = .waits state → state.left = 1 := by
    intro _ _ _ _ _ _ _ _ _ hreply hupshot
    cases hreply with
    | succeeded h => exact hparting h hupshot
    | failed | panicked | timedOut => cases hupshot
  cases h with
  | undecodable hstate _ h | unhandled hstate _ _ h =>
      rw [hstate, hparting h hwaits]
      decide
  | called hstate =>
      obtain rfl := Upshot.waits.inj hwaits
      rw [hstate]
      exact Nat.lt_succ_self 2
  | answered hstate _ _ _ _ h =>
      rw [hstate, hreply h hwaits]
      decide
  | resumed hstate h =>
      rw [hstate, hreply h hwaits]
      exact Nat.one_lt_two
  | removed => cases hwaits

end Does

/-! ## What else happens -/

/-- The loop has counted every task that had ended. -/
theorem countEnded_record (c : Consumer) :
    c.countEnded = { c with
      ended := []
      report := (c.ended.map (·.2)).foldl Report.count c.report
      history := c.history ++ c.ended.map fun x => (c.now, .counted x.1 x.2) } := by
  have hcounts : ∀ (xs : List (Delivery × Ending)) (c : Consumer),
      xs.foldl (fun (c : Consumer) (x : Delivery × Ending) =>
        { c with report := c.report.count x.2 }.note (.counted x.1 x.2)) c = { c with
          report := (xs.map (·.2)).foldl Report.count c.report
          history := c.history ++ xs.map fun x => (c.now, .counted x.1 x.2) } := by
    intro xs
    induction xs with
    | nil =>
        intro c
        simp only [List.foldl_nil, List.map_nil, List.append_nil]
    | cons x rest ih =>
        intro c
        rw [List.foldl_cons, ih]
        simp only [note, List.map_cons, List.foldl_cons, List.append_assoc, List.cons_append,
          List.nil_append]
  exact hcounts c.ended { c with ended := [] }

/--
Nothing happens to any running task, but a task begins with its turn for each
delivery of a batch.
-/
structure Aside (c : Consumer) (batch : List Delivery) (c' : Consumer) : Prop where
  settings : c'.settings = c.settings
  handlers : c'.handlers = c.handlers
  calls : c'.calls = c.calls
  now : c'.now = c.now
  history : ∃ news, c'.history = c.history ++ news ∧ ∀ x ∈ news, x.2.about? = none
  ended : c'.ended ++ counts c'.history ⊆ c.ended ++ counts c.history
  tasks : c'.tasks = c.tasks ++ batch.map fun d => ⟨d, .ready, 0⟩
  turns : ∀ n, c'.turns.count (.task n) = c.turns.count (.task n) + (batch.map (·.number)).count n
  loop : c'.turns.count .loop ≤ max 1 (c.turns.count .loop)

namespace Aside

variable {c₀ c : Consumer} {batch : List Delivery}

theorem refl (c : Consumer) : Aside c [] c where
  settings := rfl
  handlers := rfl
  calls := rfl
  now := rfl
  history := ⟨[], (List.append_nil _).symm, nofun⟩
  ended := List.Subset.refl _
  tasks := (List.append_nil _).symm
  turns _ := rfl
  loop := Nat.le_max_right ..

theorem note (h : Aside c₀ batch c) {i : Incident} (habout : i.about? = none)
    (hcount : i.count? = none) : Aside c₀ batch (c.note i) := by
  obtain ⟨news, hhistory, hnews⟩ := h.history
  refine { h with history := ⟨news ++ [(c.now, i)], ?_, ?_⟩, ended := ?_ }
  · rw [history_note, hhistory, List.append_assoc]
  · intro x hx
    rcases List.mem_append.1 hx with hold | hnew
    · exact hnews x hold
    · rwa [List.mem_singleton.1 hnew]
  · rw [counts_note, hcount]
    exact (List.append_nil (counts c.history)).symm ▸ h.ended

/-- Something has become of the queue. -/
theorem requeue (h : Aside c₀ batch c) (q : Queue) : Aside c₀ batch { c with queue := q } :=
  { h with }

theorem countEnded (h : Aside c₀ batch c) : Aside c₀ batch c.countEnded := by
  obtain ⟨news, hhistory, hnews⟩ := h.history
  rw [countEnded_record]
  refine { h with
    history := ⟨news ++ c.ended.map fun x => (c.now, .counted x.1 x.2), ?_, ?_⟩, ended := ?_ }
  · exact (congrArg (· ++ _) hhistory).trans (List.append_assoc ..)
  · intro x hx
    rcases List.mem_append.1 hx with hold | hnew
    · exact hnews x hold
    · obtain ⟨y, -, rfl⟩ := List.mem_map.1 hnew
      rfl
  · intro x hx
    refine h.ended ?_
    simp only [counts, List.filterMap_append, List.filterMap_map, List.nil_append] at hx ⊢
    rcases List.mem_append.1 hx with hold | hnew
    · exact List.mem_append_right _ hold
    · obtain ⟨y, hy, hyx⟩ := List.mem_filterMap.1 hnew
      obtain rfl : y = x := Option.some.inj hyx
      exact List.mem_append_left _ hy

/-! ### The loop -/

theorem wakeLoop (h : Aside c₀ batch c) : Aside c₀ batch c.wakeLoop := by
  rw [wakeLoop_record]
  refine { h with turns := fun n => ?_, loop := ?_ }
  · rw [← h.turns n]
    by_cases hloop : .loop ∈ c.turns <;> simp [hloop, List.count_append]
  · have hle := h.loop
    by_cases hloop : .loop ∈ c.turns
    · simpa [hloop] using hle
    · simp only [hloop, if_false, List.count_append, List.count_eq_zero_of_not_mem hloop]
      exact Nat.le_max_left ..

/-- The loop goes on if it has no other turn. -/
theorem goOn (h : Aside c₀ batch c) (hloop : .loop ∉ c.turns) (phase : Phase) :
    Aside c₀ batch (c.goOn phase) := by
  refine { h with turns := fun n => ?_, loop := ?_ }
  · rw [← h.turns n]
    exact List.count_cons_of_ne (by simp)
  · refine Nat.le_trans ?_ (Nat.le_max_left ..)
    show (List.cons _ _).count _ ≤ 1
    exact Nat.le_of_eq (by rw [List.count_cons_self, List.count_eq_zero_of_not_mem hloop])

theorem await (h : Aside c₀ batch c) (phase : Phase) : Aside c₀ batch (c.await phase) :=
  { h with }

theorem drain (h : Aside c₀ batch c) (hloop : .loop ∉ c.turns) : Aside c₀ batch c.drain :=
  (h.note rfl rfl).goOn hloop _

theorem dispatch (h : Aside c₀ [] c) (hloop : .loop ∉ c.turns) (batch : List Delivery) :
    Aside c₀ batch (c.dispatch batch) := by
  have hreceived : Aside c₀ [] (c.note (.received batch)) := h.note rfl rfl
  have hbegun : Aside c₀ batch { c.note (.received batch) with
      tasks := c.tasks ++ batch.map fun d => ⟨d, .ready, 0⟩
      turns := c.turns ++ batch.map fun d => .task d.number } := by
    refine { hreceived with tasks := ?_, turns := fun n => ?_, loop := ?_ }
    · exact congrArg (· ++ _) (h.tasks.trans (List.append_nil _))
    · have hbatch : (batch.map fun d => Party.task d.number).count (.task n) =
          (batch.map (·.number)).count n := by
        rw [List.count, List.countP_map, List.count, List.countP_map]
        refine List.countP_congr fun d _ => ?_
        simp
      rw [List.count_append, h.turns n, hbatch]
      rfl
    · have hnone : (batch.map fun d => Party.task d.number).count .loop = 0 :=
        List.count_eq_zero_of_not_mem (by simp)
      rw [List.count_append, hnone]
      exact h.loop
  exact hbegun.goOn (by simpa using hloop) _

theorem poll (h : Aside c₀ [] c) (hloop : .loop ∉ c.turns) (max deadline : Nat) :
    ∃ batch, Aside c₀ batch (c.settle (c.queue.poll c.now max deadline)) := by
  have hlooked := h.requeue (c.queue.look c.now max).1
  rcases c.queue.poll_cases c.now max deadline with hpoll | ⟨-, poll, hpoll⟩
  · rw [hpoll]
    exact ⟨_, hlooked.dispatch hloop _⟩
  · rw [hpoll]
    exact ⟨[], hlooked.await _⟩

theorem beginReceive (h : Aside c₀ [] c) (hloop : .loop ∉ c.turns) :
    ∃ batch, Aside c₀ batch c.beginReceive := by
  have hbegan : Aside c₀ [] (c.note .receiveBegan) := h.note rfl rfl
  obtain ⟨receives, faults, ⟨error, hreceive⟩ | hreceive⟩ :=
    c.queue.receive_cases c.now c.settings.maxMessages c.settings.waitTime
  · have hfailed := @note _ _ _ (hbegan.requeue { c.queue with receives, faults })
      (.receiveFailed error) rfl rfl
    rw [Consumer.beginReceive, hreceive]
    simp only [settle]
    split
    · exact ⟨[], hfailed.goOn hloop _⟩
    · exact ⟨[], hfailed.await _⟩
  · rw [Consumer.beginReceive, hreceive]
    exact (hbegan.requeue { c.queue with receives, faults }).poll hloop _ _

/-- A turn of the loop, which has no other turn meanwhile. -/
theorem loopTurn (h : Aside c₀ [] c) (hloop : .loop ∉ c.turns) :
    ∃ batch, Aside c₀ batch c.loopTurn := by
  have hcounted := h.countEnded
  have hnone : .loop ∉ c.countEnded.turns := by
    rw [countEnded_record]
    exact hloop
  unfold Consumer.loopTurn
  cases c.phase with
  | idle | stopped => exact ⟨[], h⟩
  | starting => exact ⟨[], (h.note rfl rfl).goOn hloop _⟩
  | polling =>
      simp only
      split
      · exact ⟨[], hcounted.drain hnone⟩
      · exact hcounted.beginReceive hnone
  | receiving poll =>
      simp only
      split
      · exact ⟨[], h.drain hloop⟩
      · exact h.poll hloop _ _
  | pausing wakeAt =>
      simp only
      split
      · exact ⟨[], h.drain hloop⟩
      · exact ⟨[], h.goOn hloop _⟩
  | draining =>
      simp only
      split
      · have hstopped : Aside c₀ [] { c.countEnded with phase := .stopped } := { hcounted with }
        exact ⟨[], hstopped.note rfl rfl⟩
      · exact ⟨[], hcounted⟩

/-! ### From outside -/

theorem start (h : Aside c₀ batch c) : Aside c₀ batch c.start := by
  unfold Consumer.start
  split
  · have hstarting : Aside c₀ batch { c with phase := .starting } := { h with }
    exact hstarting.wakeLoop
  · exact h

theorem stop (h : Aside c₀ batch c) : Aside c₀ batch c.stop := by
  have hasked : Aside c₀ batch { c with stopAsked := true } := { h with }
  unfold Consumer.stop rouse
  simp only
  split
  · exact hasked.wakeLoop
  · exact hasked.wakeLoop
  · exact hasked

theorem announce (h : Aside c₀ batch c) : Aside c₀ batch c.announce := by
  unfold Consumer.announce
  split
  · exact h.wakeLoop
  · exact h

theorem send (h : Aside c₀ batch c) (body : Text.Bytes) : Aside c₀ batch (c.send body).1 := by
  rcases c.queue.send_cases body with hsend | ⟨faults, error, hsend⟩
  · simp only [Consumer.send, hsend]
    exact (h.requeue _).announce
  · simp only [Consumer.send, hsend]
    exact h.requeue _

theorem publish (h : Aside c₀ batch c) (event : LifecycleEvent) :
    Aside c₀ batch (c.publish event).1 := by
  have hsent := h.send event.encode
  unfold Consumer.publish
  split
  · rename_i c' hsend
    rw [hsend] at hsent
    exact hsent.note rfl rfl
  · rename_i c' error hsend
    rw [hsend] at hsent
    exact hsent

end Aside

end ProductCatalog.Consumer
