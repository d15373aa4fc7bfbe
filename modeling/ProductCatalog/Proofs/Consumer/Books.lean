import ProductCatalog.Proofs.Consumer.Course
import ProductCatalog.Proofs.Consumer.Moves
import ProductCatalog.Proofs.Queue.Conservation

/-!
# The books of a consumer

At every point of a run the deliveries received so far are in three places,
each of them once: with a running task, among the tasks that have ended, or
among those counted.  Every task has kept to the course of its delivery, and
the queue agrees with what the history tells of it.

A turn of a task does several things one after another.  While a task is at
work, `Working` says how far it has come; all other tasks wait meanwhile.

## Main results

* `Working.note`, `park`, `endTask` — what a task can do in a turn.
* `Orderly.taskTurn`, `loopTurn` — every turn leaves a consumer orderly.
* `Runs.orderly` — so does every run.
-/

namespace ProductCatalog.Consumer

open Queue (Delivery Message Lease)

/-- What the state of a task says about how far it has come. -/
inductive TaskState.Fits (s : Settings) (now : Nat) : TaskState → Leg → Prop
  | ready : Fits s now .ready .untouched
  | handling {event outcome wakeAt since} (hsince : since ≤ now) (hnow : now ≤ wakeAt)
      (hwake : wakeAt ≤ since + s.handlerTimeout) :
      Fits s now (.handling event outcome wakeAt) (.handling event since)
  | deleting {ending inTime wakeAt since} (hsince : since ≤ now) (hnow : now ≤ wakeAt)
      (hwake : wakeAt ≤ since + s.deleteTimeout) :
      Fits s now (.deleting ending inTime wakeAt) (.deleting ending since)

/-- What holds of deliveries, queue and history whatever the tasks are doing. -/
structure Books (c₀ c : Consumer) : Prop where
  settings : c.settings = c₀.settings
  handlers : c.handlers = c₀.handlers
  queue : c.queue.Sound
  /-- Deliveries are numbered on from those made before the run. -/
  numbers : (received c.history).map (·.number) =
    List.range' (c₀.queue.deliveries + 1) (received c.history).length
  deliveries : c.queue.deliveries = c₀.queue.deliveries + (received c.history).length
  assigned : (c.tasks.map (·.delivery) ++ (c.ended ++ counts c.history).map (·.1)).Perm
    (received c.history)
  unheard : ∀ d, d ∉ received c.history → trail c.history d = []
  done : ∀ x ∈ c.ended ++ counts c.history,
    Course c₀.settings c₀.handlers x.1 (.done x.2) (trail c.history x.1)
  report : c.report = ((counts c.history).map (·.2)).foldl Report.count {}
  removed : c.queue.deleted = c₀.queue.deleted ++ removals c.history
  leased : ∀ lease ∈ c.queue.leased, lease.delivery.number ≤ c₀.queue.deliveries ∨
    (lease.delivery ∈ received c.history ∧
      ∀ t, (t, .deleted lease.delivery) ∉ trail c.history lease.delivery)

/-- A waiting task has kept to its course. -/
def Waiting (c₀ c : Consumer) (task : Task) : Prop :=
  ∃ leg, task.state.Fits c₀.settings c.now leg ∧
    Course c₀.settings c₀.handlers task.delivery leg (trail c.history task.delivery)

/-- All tasks wait, and no task is left when the run is over. -/
structure Orderly (c₀ c : Consumer) : Prop where
  books : Books c₀ c
  waiting : ∀ task ∈ c.tasks, Waiting c₀ c task
  closed : c.phase = .stopped → c.tasks = [] ∧ c.ended = []

/-- A task is at work and has come so far; all other tasks wait. -/
structure Working (c₀ c : Consumer) (task : Task) (leg : Leg) : Prop where
  books : Books c₀ c
  running : c.phase ≠ .stopped
  mem : task ∈ c.tasks
  course : Course c₀.settings c₀.handlers task.delivery leg (trail c.history task.delivery)
  others : ∀ other ∈ c.tasks, other.delivery.number ≠ task.delivery.number → Waiting c₀ c other

/-- Nothing has been received by a consumer that has not begun. -/
theorem Fresh.orderly {c : Consumer} (h : c.Fresh) (hq : c.queue.Sound) : Orderly c c where
  books :=
    { settings := rfl
      handlers := rfl
      queue := hq
      numbers := by rw [h.history]; rfl
      deliveries := by rw [h.history]; rfl
      assigned := by rw [h.tasks, h.ended, h.history]; exact .nil
      unheard := by
        rw [h.history]
        exact fun _ _ => rfl
      done := by
        rw [h.ended, h.history]
        intro x hx
        exact absurd hx List.not_mem_nil
      report := by rw [h.report, h.history]; rfl
      removed := by rw [h.history]; exact (List.append_nil _).symm
      leased := fun lease hl => .inl (hq.counted lease hl) }
  waiting := by
    rw [h.tasks]
    intro task htask
    exact absurd htask List.not_mem_nil
  closed _ := ⟨h.tasks, h.ended⟩

variable {c₀ c : Consumer} {task : Task} {leg : Leg}

namespace Books

theorem received_nodup (h : Books c₀ c) : ((received c.history).map (·.number)).Nodup :=
  h.numbers ▸ List.nodup_range'

/-- Deliveries received are told apart by their numbers. -/
theorem eq_of_number (h : Books c₀ c) {d d' : Delivery} (hd : d ∈ received c.history)
    (hd' : d' ∈ received c.history) (hnumber : d.number = d'.number) : d = d' :=
  List.inj_on_of_nodup_map h.received_nodup hd hd' hnumber

theorem number_bounds (h : Books c₀ c) {d : Delivery} (hd : d ∈ received c.history) :
    c₀.queue.deliveries < d.number ∧ d.number ≤ c.queue.deliveries := by
  have hnumber : d.number ∈ (received c.history).map (·.number) := List.mem_map_of_mem hd
  have hdeliveries := h.deliveries
  rw [h.numbers, List.mem_range'_1] at hnumber
  omega

theorem mem_received (h : Books c₀ c) (htask : task ∈ c.tasks) :
    task.delivery ∈ received c.history :=
  h.assigned.subset (List.mem_append_left _ (List.mem_map_of_mem htask))

/-- Running tasks are told apart by the numbers of their deliveries. -/
theorem tasks_nodup (h : Books c₀ c) : (c.tasks.map (·.delivery.number)).Nodup := by
  have hall := (h.assigned.map (·.number)).nodup_iff.2 h.received_nodup
  rw [List.map_append, List.map_map] at hall
  exact (List.nodup_append.1 hall).1

/-- A running task has neither ended nor been counted. -/
theorem ne_of_running (h : Books c₀ c) (htask : task ∈ c.tasks) {x : Delivery × Ending}
    (hx : x ∈ c.ended ++ counts c.history) : task.delivery ≠ x.1 := by
  have hall := h.assigned.nodup_iff.2 h.received_nodup.of_map
  exact (List.nodup_append.1 hall).2.2 _ (List.mem_map_of_mem htask) _ (List.mem_map_of_mem hx)

end Books

/-! ## Noting an incident -/

/-- What an incident tells agrees with what becomes of the queue. -/
structure Incident.Tells (i : Incident) (q q' : Queue) : Prop where
  sound : q'.Sound
  deliveries : q'.deliveries = q.deliveries
  deleted : q'.deleted = q.deleted ++ i.removal?.toList
  leased : ∀ lease ∈ q'.leased, lease ∈ q.leased ∧ i ≠ .deleted lease.delivery

/-- Faults and counts of receives are nothing that an incident tells. -/
theorem Incident.tells_of_none {i : Incident} {q : Queue} (hremoval : i.removal? = none)
    (hq : q.Sound) (receives : Nat) (faults : Queue.Faults) :
    i.Tells q { q with receives := receives, faults := faults } where
  sound := { hq with }
  deliveries := rfl
  deleted := by rw [hremoval]; exact (List.append_nil _).symm
  leased lease hl := by
    refine ⟨hl, ?_⟩
    rintro rfl
    cases hremoval

/-- The books are kept when an incident is noted that brings nothing and counts nothing. -/
theorem Books.note_with (h : Books c₀ c) {i : Incident} {q : Queue} (htells : i.Tells c.queue q)
    (hbatch : i.batch = []) (hcount : i.count? = none)
    (habout : ∀ d, i.about? = some d → ∃ task ∈ c.tasks, task.delivery = d) :
    Books c₀ ({ c with queue := q }.note i) := by
  have hreceived : received ({ c with queue := q }.note i).history = received c.history := by
    rw [received_note, hbatch, List.append_nil]
  have hcounts : counts ({ c with queue := q }.note i).history = counts c.history := by
    rw [counts_note, hcount]
    exact List.append_nil _
  refine ⟨h.settings, h.handlers, htells.sound, ?_, ?_, ?_, ?_, ?_, ?_, ?_, ?_⟩
  · rw [hreceived]
    exact h.numbers
  · rw [hreceived]
    exact htells.deliveries.trans h.deliveries
  · rw [hreceived, hcounts]
    exact h.assigned
  · intro d hd
    rw [hreceived] at hd
    have hother : i.about? ≠ some d := by
      intro hd'
      obtain ⟨task, htask, rfl⟩ := habout d hd'
      exact hd (h.mem_received htask)
    rw [trail_note_of_ne _ _ hother]
    exact h.unheard d hd
  · intro x hx
    rw [hcounts] at hx
    -- the incident is about a running task, and this one has ended
    have hother : i.about? ≠ some x.1 := by
      intro hx'
      obtain ⟨task, htask, heq⟩ := habout _ hx'
      exact h.ne_of_running htask hx heq
    rw [trail_note_of_ne _ _ hother]
    exact h.done x hx
  · rw [hcounts]
    exact h.report
  · rw [removals_note, ← List.append_assoc, ← h.removed]
    exact htells.deleted
  · intro lease hl
    obtain ⟨hold, hne⟩ := htells.leased lease hl
    rw [hreceived]
    rcases h.leased lease hold with hbefore | ⟨hmem, hnot⟩
    · exact .inl hbefore
    · refine .inr ⟨hmem, ?_⟩
      intro t ht
      rw [trail_note] at ht
      rcases List.mem_append.1 ht with ht | ht
      · exact hnot t ht
      · split at ht
        · exact hne (Prod.mk.inj (List.mem_singleton.1 ht)).2.symm
        · exact absurd ht List.not_mem_nil

/-- A task waits for as long as nothing is told of it and no time passes. -/
theorem Waiting.of_trail {c' : Consumer} (h : Waiting c₀ c task) (hnow : c'.now = c.now)
    (htrail : trail c'.history task.delivery = trail c.history task.delivery) :
    Waiting c₀ c' task := by
  obtain ⟨leg, hfits, hcourse⟩ := h
  refine ⟨leg, ?_, ?_⟩
  · rw [hnow]
    exact hfits
  · rw [htrail]
    exact hcourse

/-- What a task does shows in no other trail. -/
theorem Waiting.note_with {i : Incident} {q : Queue} (h : Waiting c₀ c task)
    (habout : i.about? ≠ some task.delivery) :
    Waiting c₀ ({ c with queue := q }.note i) task :=
  h.of_trail rfl (trail_note_of_ne { c with queue := q } i habout)

/-- A task goes on with what it does, and notes it. -/
theorem Working.note_with (h : Working c₀ c task leg) {i : Incident} {q : Queue} {leg' : Leg}
    (htells : i.Tells c.queue q) (habout : i.about? = some task.delivery)
    (hcourse : Course c₀.settings c₀.handlers task.delivery leg'
      (trail c.history task.delivery ++ [(c.now, i)])) :
    Working c₀ ({ c with queue := q }.note i) task leg' where
  books := by
    obtain ⟨hbatch, hcount⟩ := Incident.quiet_of_about habout
    refine h.books.note_with htells hbatch hcount ?_
    intro d hd
    exact ⟨task, h.mem, Option.some.inj (habout.symm.trans hd)⟩
  running := h.running
  mem := h.mem
  course := by
    rw [trail_note, if_pos habout]
    exact hcourse
  others other hother hne := by
    refine (h.others other hother hne).note_with ?_
    rw [habout]
    intro heq
    exact hne (congrArg Delivery.number (Option.some.inj heq)).symm

/-- A task goes on with what it does, and the queue takes no notice. -/
theorem Working.note (h : Working c₀ c task leg) {i : Incident} {leg' : Leg}
    (hremoval : i.removal? = none) (habout : i.about? = some task.delivery)
    (hcourse : Course c₀.settings c₀.handlers task.delivery leg'
      (trail c.history task.delivery ++ [(c.now, i)])) :
    Working c₀ (c.note i) task leg' :=
  h.note_with (Incident.tells_of_none hremoval h.books.queue c.queue.receives c.queue.faults)
    habout hcourse

/-- Incidents that belong to no task leave all tasks where they are. -/
theorem Orderly.note_with (h : Orderly c₀ c) {i : Incident} {q : Queue}
    (htells : i.Tells c.queue q) (habout : i.about? = none) (hbatch : i.batch = [])
    (hcount : i.count? = none) : Orderly c₀ ({ c with queue := q }.note i) where
  books := h.books.note_with htells hbatch hcount (by simp [habout])
  waiting task htask := (h.waiting task htask).note_with (by simp [habout])
  closed := h.closed

theorem Orderly.note (h : Orderly c₀ c) {i : Incident} (habout : i.about? = none)
    (hbatch : i.batch = []) (hcount : i.count? = none) : Orderly c₀ (c.note i) :=
  h.note_with (Incident.tells_of_none (Incident.removal_of_about habout) h.books.queue
    c.queue.receives c.queue.faults) habout hbatch hcount

/-! ## What a task does in a turn -/

/-- Turns do not matter to the order. -/
theorem Orderly.wakeLoop (h : Orderly c₀ c) : Orderly c₀ c.wakeLoop := by
  unfold Consumer.wakeLoop
  split
  · exact h
  · exact ⟨{ h.books with }, h.waiting, h.closed⟩

/-- Running tasks with the number of a delivery are one. -/
private theorem eq_task (h : Books c₀ c) {other : Task} (htask : task ∈ c.tasks)
    (hother : other ∈ c.tasks) (hnumber : other.delivery.number = task.delivery.number) :
    other = task :=
  List.inj_on_of_nodup_map h.tasks_nodup hother htask hnumber

/-- A task that parks in a state that fits waits like all others. -/
theorem Working.park (h : Working c₀ c task leg) {state : TaskState}
    (hfits : state.Fits c₀.settings c.now leg) : Orderly c₀ (c.park task state) where
  books := by
    have hdeliveries : (c.park task state).tasks.map (·.delivery) = c.tasks.map (·.delivery) := by
      simp only [Consumer.park, List.map_map]
      refine List.map_congr_left fun other _ => ?_
      show Task.delivery (if _ then _ else _) = _
      split <;> rfl
    exact { h.books with assigned := hdeliveries ▸ h.books.assigned }
  waiting other hother := by
    obtain ⟨before, hbefore, rfl⟩ := List.mem_map.1 hother
    by_cases hnumber : before.delivery.number = task.delivery.number
    · obtain rfl := eq_task h.books h.mem hbefore hnumber
      rw [if_pos rfl]
      exact ⟨leg, hfits, h.course⟩
    · rw [if_neg hnumber]
      exact h.others before hbefore hnumber
  closed hphase := absurd hphase h.running

/-- A task that is over leaves the running tasks. -/
theorem Working.endTask {ending : Ending} (h : Working c₀ c task (.done ending)) :
    Orderly c₀ (c.endTask task ending) := by
  have hperm : c.tasks.Perm
      (task :: c.tasks.filter fun other => other.delivery.number != task.delivery.number) :=
    perm_cons_filter_key h.books.tasks_nodup h.mem
  have hended : Orderly c₀ { c with
      tasks := c.tasks.filter fun other => other.delivery.number != task.delivery.number
      ended := c.ended ++ [(task.delivery, ending)] } := by
    refine ⟨{ h.books with assigned := ?_, done := ?_ }, ?_, fun hphase => absurd hphase h.running⟩
    · refine List.Perm.trans ?_ h.books.assigned
      refine List.Perm.trans ?_ ((hperm.map (·.delivery)).symm.append_right _)
      rw [List.perm_iff_count]
      intro d
      simp only [List.map_append, List.map_cons, List.map_nil, List.count_append, List.count_cons,
        List.count_nil]
      omega
    · intro x hx
      rcases List.mem_append.1 hx with hx | hx
      · rcases List.mem_append.1 hx with hx | hx
        · exact h.books.done x (List.mem_append_left _ hx)
        · obtain rfl := List.mem_singleton.1 hx
          exact h.course
      · exact h.books.done x (List.mem_append_right _ hx)
    · intro other hother
      obtain ⟨hmem, hne⟩ := List.mem_filter.1 hother
      exact h.others other hmem (bne_iff_ne.1 hne)
  unfold Consumer.endTask
  simp only
  split
  · exact hended.wakeLoop
  · exact hended

/-- A deletion is carried out, refused or given up. -/
theorem Working.finishDelete {ending : Ending} {since : Nat}
    (h : Working c₀ c task (.deleting ending since)) (hsince : since ≤ c.now)
    (htime : c.now ≤ since + c₀.settings.deleteTimeout) (inTime : Bool) :
    Orderly c₀ (c.finishDelete task ending inTime) := by
  cases inTime with
  | false =>
      have hgivenUp : Working c₀ (c.note (.deleteTimedOut task.delivery)) task (.done ending) :=
        h.note rfl rfl (.deleteTimedOut h.course hsince htime)
      exact hgivenUp.endTask
  | true =>
      rcases c.queue.delete_cases task.delivery.token with
        ⟨lease, hl, htoken, hdelete⟩ | ⟨faults, error, hdelete⟩
      · -- the lease with the task's token is the one of its delivery
        have hlease : lease.delivery = task.delivery := by
          have hnumber : lease.delivery.number = task.delivery.number :=
            (Queue.token_inj htoken).2
          have htask := h.books.mem_received h.mem
          rcases h.books.leased lease hl with hold | ⟨hmem, -⟩
          · have hbounds := h.books.number_bounds htask
            omega
          · exact h.books.eq_of_number hmem htask hnumber
        have htells : (Incident.deleted task.delivery).Tells c.queue
            (c.queue.delete task.delivery.token).1 := by
          refine ⟨h.books.queue.delete _, ?_, ?_, ?_⟩
          · rw [hdelete]
          · rw [hdelete, hlease]
            rfl
          · rw [hdelete]
            intro other hother
            obtain ⟨hmem, hne⟩ := List.mem_filter.1 hother
            refine ⟨hmem, ?_⟩
            intro heq
            rw [← (Incident.deleted.inj heq)] at hne
            exact bne_iff_ne.1 hne rfl
        rw [hdelete] at htells
        simp only [Consumer.finishDelete, hdelete, if_true]
        exact (h.note_with htells rfl (.deleted h.course hsince htime)).endTask
      · have htells : (Incident.deleteFailed task.delivery error).Tells c.queue
            { c.queue with faults := faults } :=
          Incident.tells_of_none rfl h.books.queue c.queue.receives faults
        simp only [Consumer.finishDelete, hdelete, if_true]
        exact (h.note_with htells rfl (.deleteFailed h.course hsince htime)).endTask

/-- A deletion begins, and ends at once if it takes no time. -/
theorem Working.beginDelete {ending : Ending} (h : Working c₀ c task (.judged ending)) :
    Orderly c₀ (c.beginDelete task ending) := by
  have hcalled : Working c₀ ({ c with deletions := c.deletions + 1 }.note
      (.deleteCalled task.delivery)) task (.deleting ending c.now) := by
    have hwork : Working c₀ { c with deletions := c.deletions + 1 } task (.judged ending) :=
      ⟨{ h.books with }, h.running, h.mem, h.course, h.others⟩
    exact hwork.note rfl rfl (.deleteCalled h.course)
  have hle := Nat.min_le_right (c.deleteDelay c.deletions) c.settings.deleteTimeout
  simp only [Consumer.beginDelete, settings_note]
  cases hwait : min (c.deleteDelay c.deletions) c.settings.deleteTimeout with
  | zero => exact hcalled.finishDelete (Nat.le_refl _) (Nat.le_add_right _ _) _
  | succ wait =>
      refine hcalled.park (.deleting (Nat.le_refl _) (Nat.le_add_right _ _) ?_)
      rw [hwait, h.books.settings] at hle
      exact Nat.add_le_add_left hle _

/-- A handler's call has ended or is given up. -/
theorem Working.finishHandling {event : LifecycleEvent} {since : Nat}
    (h : Working c₀ c task (.handling event since)) (hsince : since ≤ c.now)
    (htime : c.now ≤ since + c₀.settings.handlerTimeout) (outcome : Option Outcome) :
    Orderly c₀ (c.finishHandling task event outcome) := by
  cases outcome with
  | none =>
      have hover : Working c₀ (c.note (.handlerTimedOut task.delivery event)) task
          (.done .redelivered) := h.note rfl rfl (.timedOut h.course hsince htime)
      exact hover.endTask
  | some outcome =>
      cases outcome with
      | ok =>
          have hjudged : Working c₀ (c.note (.handlerEnded task.delivery event .ok)) task
              (.judged .completed) := h.note rfl rfl (.succeeded h.course hsince htime)
          exact hjudged.beginDelete
      | failed reason =>
          have hover : Working c₀ (c.note (.handlerEnded task.delivery event (.failed reason)))
              task (.done .redelivered) := h.note rfl rfl (.failed h.course hsince htime)
          exact hover.endTask
      | panicked =>
          have hover : Working c₀ (c.note (.handlerEnded task.delivery event .panicked)) task
              (.done .crashed) := h.note rfl rfl (.panicked h.course hsince htime)
          exact hover.endTask

/-- What a handler tells the log belongs to no task. -/
theorem Working.tell (h : Working c₀ c task leg) (entry : LogEntry) :
    Working c₀ (c.note (.told entry)) task leg where
  books := h.books.note_with
    (Incident.tells_of_none rfl h.books.queue c.queue.receives c.queue.faults) rfl rfl
    fun _ hd => nomatch hd
  running := h.running
  mem := h.mem
  course := by
    rw [trail_note_of_ne c (.told entry) nofun]
    exact h.course
  others other hother hne := (h.others other hother hne).note_with (q := c.queue) nofun

/-- However much a handler tells the log, no time passes meanwhile. -/
private theorem working_tellAll (entries : List LogEntry) (h : Working c₀ c task leg) :
    Working c₀ (entries.foldl (fun c entry => c.note (.told entry)) c) task leg ∧
      (entries.foldl (fun c entry => c.note (.told entry)) c).now = c.now := by
  induction entries generalizing c with
  | nil => exact ⟨h, rfl⟩
  | cons entry rest ih => exact ih (h.tell entry)

/-- A handler is called, and its call ends at once if it takes no time. -/
theorem Working.callHandler {event : LifecycleEvent} {handler : Handler}
    (h : Working c₀ c task .untouched)
    (hbody : decode task.delivery.message.body = .ok event)
    (hsome : c₀.handlers.get event.kind = some handler)
    (htrail : trail c.history task.delivery = []) :
    Orderly c₀ (c.callHandler task event handler) := by
  have hcalled : Working c₀ ({ c with
      calls := fun kind => if kind = event.kind then c.calls kind + 1 else c.calls kind
      service := handler.effect event c.service }.note (.handlerCalled task.delivery event)) task
        (.handling event c.now) := by
    have hwork : Working c₀ { c with
        calls := fun kind => if kind = event.kind then c.calls kind + 1 else c.calls kind
        service := handler.effect event c.service } task .untouched :=
      ⟨{ h.books with }, h.running, h.mem, h.course, h.others⟩
    refine hwork.note rfl rfl ?_
    show Course _ _ _ _ (trail c.history task.delivery ++ _)
    rw [htrail]
    exact .called hbody hsome
  obtain ⟨htold, hnow⟩ := working_tellAll (handler.report event) hcalled
  unfold Consumer.callHandler
  simp only
  revert htold hnow
  generalize (handler.report event).foldl
    (fun (c : Consumer) (entry : LogEntry) => c.note (.told entry)) _ = c'
  intro htold hnow
  have hsince : c.now ≤ c'.now := Nat.le_of_eq hnow.symm
  have hle := Nat.min_le_right (handler.reaction (c.calls event.kind) event).delay
    c'.settings.handlerTimeout
  rw [htold.books.settings] at hle ⊢
  cases hwait : min (handler.reaction (c.calls event.kind) event).delay
    c₀.settings.handlerTimeout with
  | zero => exact htold.finishHandling hsince (by rw [hnow]; exact Nat.le_add_right _ _) _
  | succ wait =>
      refine htold.park (.handling hsince (Nat.le_add_right _ _) ?_)
      rw [hwait] at hle
      rw [hnow]
      exact Nat.add_le_add_left hle _

/-- A task begins. -/
theorem Working.process (h : Working c₀ c task .untouched) : Orderly c₀ (c.process task) := by
  have htrail : trail c.history task.delivery = [] := by
    generalize htrail : trail c.history task.delivery = incidents
    have hcourse := h.course
    rw [htrail] at hcourse
    cases hcourse
    rfl
  unfold Consumer.process
  cases hbody : decode task.delivery.message.body with
  | error error =>
      have hjudged : Working c₀ (c.note (.undecodable task.delivery error)) task
          (.judged .discarded) :=
        h.note rfl rfl (by rw [htrail]; exact .undecodable hbody)
      exact hjudged.beginDelete
  | ok event =>
      simp only
      rw [h.books.handlers]
      cases hget : c₀.handlers.get event.kind with
      | none =>
          have hjudged : Working c₀ (c.note (.unhandled task.delivery event)) task
              (.judged .discarded) :=
            h.note rfl rfl (by rw [htrail]; exact .unhandled hbody hget)
          exact hjudged.beginDelete
      | some handler => exact h.callHandler hbody hget htrail

/-- A turn of a task leaves all tasks waiting. -/
theorem Orderly.taskTurn (h : Orderly c₀ c) (delivery : Nat) :
    Orderly c₀ (c.taskTurn delivery) := by
  unfold Consumer.taskTurn
  cases hfind : c.tasks.find? (·.delivery.number = delivery) with
  | none => exact h
  | some task =>
      have hmem : task ∈ c.tasks := List.mem_of_find?_eq_some hfind
      obtain ⟨leg, hfits, hcourse⟩ := h.waiting task hmem
      have hrunning : c.phase ≠ .stopped := by
        intro hphase
        rw [(h.closed hphase).1] at hmem
        exact absurd hmem List.not_mem_nil
      have hwork : Working c₀ c task leg :=
        ⟨h.books, hrunning, hmem, hcourse, fun other hother _ => h.waiting other hother⟩
      simp only
      cases hstate : task.state with
      | ready =>
          rw [hstate] at hfits
          cases hfits
          exact hwork.process
      | handling event outcome wakeAt =>
          rw [hstate] at hfits
          cases hfits with
          | handling hsince hnow hwake =>
              exact hwork.finishHandling hsince (Nat.le_trans hnow hwake) outcome
      | deleting ending inTime wakeAt =>
          rw [hstate] at hfits
          cases hfits with
          | deleting hsince hnow hwake =>
              exact hwork.finishDelete hsince (Nat.le_trans hnow hwake) inTime

/-! ## What the loop does in a turn -/

/-- Where the loop goes on or waits does not matter to the order, unless the run is over. -/
theorem Orderly.goOn (h : Orderly c₀ c) {phase : Phase} (hphase : phase ≠ .stopped) :
    Orderly c₀ (c.goOn phase) :=
  ⟨{ h.books with }, h.waiting, fun heq => absurd heq hphase⟩

theorem Orderly.await (h : Orderly c₀ c) {phase : Phase} (hphase : phase ≠ .stopped) :
    Orderly c₀ (c.await phase) :=
  ⟨{ h.books with }, h.waiting, fun heq => absurd heq hphase⟩

/-- Stopping to receive is noted, and changes no task. -/
theorem Orderly.drain (h : Orderly c₀ c) : Orderly c₀ c.drain :=
  (h.note rfl rfl rfl).goOn nofun

/-- Counting the end of one task. -/
private def countOne (c : Consumer) (x : Delivery × Ending) : Consumer :=
  { c with report := c.report.count x.2 }.note (.counted x.1 x.2)

private theorem countEnded_eq (c : Consumer) :
    c.countEnded = c.ended.foldl countOne { c with ended := [] } := rfl

/-- A count shows among the counts and nowhere else. -/
private theorem views_countOne (c : Consumer) (x : Delivery × Ending) :
    received (countOne c x).history = received c.history ∧
      counts (countOne c x).history = counts c.history ++ [x] ∧
      removals (countOne c x).history = removals c.history ∧
      ∀ d, trail (countOne c x).history d = trail c.history d := by
  refine ⟨?_, ?_, ?_, ?_⟩
  · rw [countOne, received_note]
    exact List.append_nil _
  · rw [countOne, counts_note]
    rfl
  · rw [countOne, removals_note]
    exact List.append_nil _
  · intro d
    exact trail_note_of_ne _ _ nofun

/-- A task that has ended is counted instead. -/
private theorem orderly_countOne {x : Delivery × Ending} {rest : List (Delivery × Ending)}
    (h : Orderly c₀ { c with ended := x :: rest }) :
    Orderly c₀ { countOne c x with ended := rest } := by
  obtain ⟨hreceived, hcounts, hremovals, htrail⟩ := views_countOne c x
  have hall : (rest ++ (counts c.history ++ [x])).Perm (x :: rest ++ counts c.history) := by
    rw [← List.append_assoc]
    exact List.perm_append_comm
  refine ⟨⟨h.books.settings, h.books.handlers, h.books.queue, ?_, ?_, ?_, ?_, ?_, ?_, ?_, ?_⟩, ?_,
    fun hphase => absurd (h.closed hphase).2 nofun⟩
  · rw [hreceived]
    exact h.books.numbers
  · rw [hreceived]
    exact h.books.deliveries
  · rw [hreceived, hcounts]
    exact ((hall.map _).append_left _).trans h.books.assigned
  · intro d hd
    rw [hreceived] at hd
    rw [htrail]
    exact h.books.unheard d hd
  · intro y hy
    rw [hcounts, hall.mem_iff] at hy
    rw [htrail]
    exact h.books.done y hy
  · have hreport : c.report = ((counts c.history).map (·.2)).foldl Report.count {} :=
      h.books.report
    rw [hcounts, List.map_append, List.foldl_append, ← hreport]
    rfl
  · rw [hremovals]
    exact h.books.removed
  · intro lease hl
    rw [hreceived, htrail]
    exact h.books.leased lease hl
  · intro task htask
    exact (h.waiting task htask).of_trail rfl (htrail _)

/-- Counting leaves no task that has ended uncounted. -/
theorem Orderly.countEnded (h : Orderly c₀ c) :
    Orderly c₀ c.countEnded ∧ c.countEnded.ended = [] := by
  have hall : ∀ (xs : List (Delivery × Ending)) (c : Consumer), c.ended = [] →
      Orderly c₀ { c with ended := xs } →
        Orderly c₀ (xs.foldl countOne c) ∧ (xs.foldl countOne c).ended = [] := by
    intro xs
    induction xs with
    | nil =>
        intro c hended h
        have hsame : { c with ended := [] } = c := by rw [← hended]
        rw [hsame] at h
        exact ⟨h, hended⟩
    | cons x rest ih =>
        intro c hended h
        exact ih (countOne c x) hended (orderly_countOne h)
  rw [countEnded_eq]
  exact hall c.ended { c with ended := [] } rfl h

/-! ## What a receive brings -/

/-- A look that finds nothing changes nothing that the books tell of. -/
theorem Orderly.look_empty (h : Orderly c₀ c) {now max : Nat}
    (hempty : (c.queue.look now max).2 = []) :
    Orderly c₀ { c with queue := (c.queue.look now max).1 } := by
  refine ⟨{ h.books with queue := h.books.queue.look now max, deliveries := ?_, leased := ?_ },
    h.waiting, h.closed⟩
  · show c.queue.deliveries + (c.queue.look now max).2.length = _
    rw [hempty]
    exact h.books.deliveries
  · intro lease hl
    rcases Queue.mem_leased_look hl with hold | hnew
    · exact h.books.leased lease hold
    · rw [hempty] at hnew
      exact absurd hnew List.not_mem_nil

/-- What a look hands out has not been received before. -/
theorem Books.not_received (h : Books c₀ c) {now max : Nat} {d : Delivery}
    (hd : d ∈ (c.queue.look now max).2) : d ∉ received c.history := by
  intro hmem
  have hnumber := List.mem_map_of_mem (f := Delivery.number) hd
  have hbounds := h.number_bounds hmem
  rw [Queue.map_number_look, List.mem_range'_1] at hnumber
  omega

/-- A batch shows among the deliveries received and nowhere else. -/
private theorem views_dispatch (c : Consumer) (q : Queue) (batch : List Delivery) :
    received ({ c with queue := q }.dispatch batch).history = received c.history ++ batch ∧
      counts ({ c with queue := q }.dispatch batch).history = counts c.history ∧
      removals ({ c with queue := q }.dispatch batch).history = removals c.history ∧
      ∀ d, trail ({ c with queue := q }.dispatch batch).history d = trail c.history d := by
  refine ⟨received_note c (.received batch), ?_, ?_, ?_⟩
  · exact (counts_note c (.received batch)).trans (List.append_nil _)
  · exact (removals_note c (.received batch)).trans (List.append_nil _)
  · intro d
    exact trail_note_of_ne c (.received batch) nofun

/-- Every delivery of a batch gets a task of its own. -/
theorem Orderly.dispatch (h : Orderly c₀ c) (now max : Nat) :
    Orderly c₀
      ({ c with queue := (c.queue.look now max).1 }.dispatch (c.queue.look now max).2) := by
  have hleases : ∀ lease ∈ (c.queue.look now max).1.leased,
      lease ∈ c.queue.leased ∨ lease.delivery ∈ (c.queue.look now max).2 :=
    fun lease hl => Queue.mem_leased_look hl
  have hnumbers := Queue.map_number_look c.queue now max
  have hfresh : ∀ d ∈ (c.queue.look now max).2, d ∉ received c.history :=
    fun d hd => h.books.not_received hd
  have hsound := h.books.queue.look now max
  have hdeliveries : (c.queue.look now max).1.deliveries =
    c.queue.deliveries + (c.queue.look now max).2.length := rfl
  have hdeleted : (c.queue.look now max).1.deleted = c.queue.deleted := rfl
  revert hleases hnumbers hfresh hsound hdeliveries hdeleted
  generalize (c.queue.look now max).1 = q
  generalize (c.queue.look now max).2 = batch
  intro hleases hnumbers hfresh hsound hdeliveries hdeleted
  have hbefore := h.books.deliveries
  obtain ⟨hreceived, hcounts, hremovals, htrail⟩ := views_dispatch c q batch
  refine ⟨⟨h.books.settings, h.books.handlers, hsound, ?_, ?_, ?_, ?_, ?_, ?_, ?_, ?_⟩, ?_, nofun⟩
  · rw [hreceived, List.map_append, h.books.numbers, hnumbers, hbefore, List.length_append,
      Nat.add_right_comm, List.range'_append_1]
  · rw [hreceived, List.length_append]
    show q.deliveries = _
    omega
  · have hnew : (batch.map fun d => (⟨d, .ready, 0⟩ : Task)).map (·.delivery) = batch := by
      rw [List.map_map]
      exact List.map_id _
    rw [hreceived, hcounts]
    show ((c.tasks ++ batch.map fun d => (⟨d, .ready, 0⟩ : Task)).map (·.delivery) ++
      (c.ended ++ counts c.history).map (·.1)).Perm _
    rw [List.map_append, hnew, List.perm_iff_count]
    intro d
    have hcount := h.books.assigned.count_eq d
    simp only [List.count_append] at hcount ⊢
    omega
  · intro d hd
    rw [hreceived, List.mem_append, not_or] at hd
    rw [htrail]
    exact h.books.unheard d hd.1
  · intro x hx
    rw [hcounts] at hx
    rw [htrail]
    exact h.books.done x hx
  · rw [hcounts]
    exact h.books.report
  · rw [hremovals]
    exact hdeleted.trans h.books.removed
  · intro lease hl
    rw [hreceived, htrail]
    rcases hleases lease hl with hold | hnew
    · rcases h.books.leased lease hold with hbefore | ⟨hmem, hnot⟩
      · exact .inl hbefore
      · exact .inr ⟨List.mem_append_left _ hmem, hnot⟩
    · refine .inr ⟨List.mem_append_right _ hnew, ?_⟩
      rw [h.books.unheard _ (hfresh _ hnew)]
      exact fun _ => List.not_mem_nil
  · intro task htask
    rcases List.mem_append.1 htask with hold | hnew
    · exact (h.waiting task hold).of_trail rfl (htrail _)
    · obtain ⟨d, hd, rfl⟩ := List.mem_map.1 hnew
      refine ⟨.untouched, .ready, ?_⟩
      rw [htrail, h.books.unheard d (hfresh d hd)]
      exact .untouched

/-- A receive that looks leaves a consumer orderly, whether it ends or waits. -/
theorem Orderly.poll (h : Orderly c₀ c) (now max deadline : Nat) :
    Orderly c₀ (c.settle (c.queue.poll now max deadline)) := by
  rcases c.queue.poll_cases now max deadline with hfinished | ⟨hempty, poll, hwaiting⟩
  · rw [hfinished]
    exact h.dispatch now max
  · rw [hwaiting]
    exact (h.look_empty hempty).await nofun

/-- A receive that fails is noted, and the loop pauses. -/
theorem Orderly.receiveFailed (h : Orderly c₀ c) (receives : Nat) (faults : Queue.Faults)
    (error : TransportError) :
    Orderly c₀ (c.settle
      ({ c.queue with receives := receives, faults := faults }, .finished (.error error))) := by
  have hnoted : Orderly c₀ ({ c with
      queue := { c.queue with receives := receives, faults := faults } }.note
        (.receiveFailed error)) :=
    h.note_with (Incident.tells_of_none rfl h.books.queue receives faults) rfl rfl rfl
  simp only [settle]
  split
  · exact hnoted.goOn nofun
  · exact hnoted.await nofun

/-- The beginning of a receive leaves a consumer orderly, whatever comes of it. -/
theorem Orderly.beginReceive (h : Orderly c₀ c) : Orderly c₀ c.beginReceive := by
  have hbegan : Orderly c₀ (c.note .receiveBegan) := h.note rfl rfl rfl
  obtain ⟨receives, faults, ⟨error, hreceive⟩ | hreceive⟩ :=
    c.queue.receive_cases c.now c.settings.maxMessages c.settings.waitTime
  · rw [Consumer.beginReceive, hreceive]
    exact hbegan.receiveFailed receives faults error
  · have hcounted : Orderly c₀ { c.note .receiveBegan with
        queue := { c.queue with receives := receives, faults := faults } } :=
      ⟨{ hbegan.books with queue := { hbegan.books.queue with } }, hbegan.waiting, hbegan.closed⟩
    rw [Consumer.beginReceive, hreceive]
    exact hcounted.poll _ _ _

/-- A turn of the loop leaves a consumer orderly. -/
theorem Orderly.loopTurn (h : Orderly c₀ c) : Orderly c₀ c.loopTurn := by
  have hcounted : Orderly c₀ c.countEnded := h.countEnded.1
  unfold Consumer.loopTurn
  cases c.phase with
  | idle => exact h
  | stopped => exact h
  | starting => exact (h.note rfl rfl rfl).goOn nofun
  | polling =>
      simp only
      split
      · exact hcounted.drain
      · exact hcounted.beginReceive
  | receiving poll =>
      simp only
      split
      · exact h.drain
      · exact h.poll _ _ _
  | pausing wakeAt =>
      simp only
      split
      · exact h.drain
      · exact h.goOn nofun
  | draining =>
      simp only
      split
      · rename_i hempty
        have hstopped : Orderly c₀ { c.countEnded with phase := .stopped } :=
          ⟨{ hcounted.books with }, hcounted.waiting,
            fun _ => ⟨List.isEmpty_iff.1 hempty, h.countEnded.2⟩⟩
        exact hstopped.note rfl rfl rfl
      · exact hcounted

/-! ## Every move -/

/-- Time that passes no alarm leaves every task in time. -/
theorem Orderly.ring (h : Orderly c₀ c) {instant : Nat}
    (halarms : ∀ alarm ∈ c.pending, instant ≤ alarm.1) : Orderly c₀ (c.ring instant) where
  books := { h.books with }
  waiting task htask := by
    obtain ⟨leg, hfits, hcourse⟩ := h.waiting task htask
    have hwakes : ∀ wakeAt, task.wakeAt? = some wakeAt → instant ≤ wakeAt := by
      intro wakeAt hwake
      refine halarms (wakeAt, task.alarm, .task task.delivery.number) ?_
      refine List.mem_append_right _ (List.mem_filterMap.2 ⟨task, htask, ?_⟩)
      rw [hwake]
      rfl
    refine ⟨leg, ?_, hcourse⟩
    show task.state.Fits c₀.settings (max c.now instant) leg
    rw [Task.wakeAt?] at hwakes
    cases hstate : task.state with
    | ready =>
        rw [hstate] at hfits
        cases hfits
        exact .ready
    | handling event outcome wakeAt =>
        rw [hstate] at hfits hwakes
        have hinstant := hwakes wakeAt rfl
        cases hfits with
        | handling hsince hnow hwake => exact .handling (by omega) (by omega) hwake
    | deleting ending inTime wakeAt =>
        rw [hstate] at hfits hwakes
        have hinstant := hwakes wakeAt rfl
        cases hfits with
        | deleting hsince hnow hwake => exact .deleting (by omega) (by omega) hwake
  closed := h.closed

/-- A message that is sent is not a delivery yet. -/
theorem Orderly.send (h : Orderly c₀ c) (body : Text.Bytes) : Orderly c₀ (c.send body).1 := by
  rcases c.queue.send_cases body with hsend | ⟨faults, error, hsend⟩
  · have hpushed : Orderly c₀ { c with queue := c.queue.push body } :=
      ⟨{ h.books with queue := h.books.queue.push body }, h.waiting, h.closed⟩
    simp only [Consumer.send, hsend, announce]
    split
    · exact hpushed.wakeLoop
    · exact hpushed
  · simp only [Consumer.send, hsend]
    exact ⟨{ h.books with queue := { h.books.queue with } }, h.waiting, h.closed⟩

theorem Orderly.publish (h : Orderly c₀ c) (event : LifecycleEvent) :
    Orderly c₀ (c.publish event).1 := by
  have hsent := h.send event.encode
  unfold Consumer.publish
  split
  · rename_i c' heq
    rw [heq] at hsent
    exact hsent.note rfl rfl rfl
  · rename_i c' error heq
    rw [heq] at hsent
    exact hsent

theorem Orderly.start (h : Orderly c₀ c) : Orderly c₀ c.start := by
  unfold Consumer.start
  split
  · have hstarting : Orderly c₀ { c with phase := .starting } :=
      ⟨{ h.books with }, h.waiting, nofun⟩
    exact hstarting.wakeLoop
  · exact h

theorem Orderly.stop (h : Orderly c₀ c) : Orderly c₀ c.stop := by
  have hasked : Orderly c₀ { c with stopAsked := true } := ⟨{ h.books with }, h.waiting, h.closed⟩
  unfold Consumer.stop rouse
  simp only
  split
  · exact hasked.wakeLoop
  · exact hasked.wakeLoop
  · exact hasked

/-- Every move leaves a consumer orderly. -/
theorem Orderly.move {c' : Consumer} (h : Orderly c₀ c) (hmove : Move c c') : Orderly c₀ c' := by
  cases hmove with
  | turn party =>
      have hturn : Orderly c₀ { c with turns := c.turns.erase party } :=
        ⟨{ h.books with }, h.waiting, h.closed⟩
      cases party with
      | loop => exact hturn.loopTurn
      | task delivery => exact hturn.taskTurn delivery
  | pass instant halarms => exact h.ring halarms
  | start => exact h.start
  | stop => exact h.stop
  | send body => exact h.send body
  | publish event => exact h.publish event
  | fail faults => exact ⟨{ h.books with queue := { h.books.queue with } }, h.waiting, h.closed⟩
  | reorder leases hperm =>
      refine ⟨{ h.books with queue := h.books.queue.reorder hperm, leased := ?_ }, h.waiting,
        h.closed⟩
      exact fun lease hl => h.books.leased lease (hperm.subset hl)

/-- Every run leaves a consumer orderly. -/
theorem Runs.orderly (h : Runs c₀ c) (hfresh : c₀.Fresh) (hqueue : c₀.queue.Sound) :
    Orderly c₀ c := by
  induction h with
  | refl => exact hfresh.orderly hqueue
  | move _ hmove ih => exact ih.move hmove

end ProductCatalog.Consumer
