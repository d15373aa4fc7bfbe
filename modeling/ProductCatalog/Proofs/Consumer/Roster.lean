import ProductCatalog.Proofs.Consumer.Course
import ProductCatalog.Proofs.Consumer.Moves
import ProductCatalog.Proofs.Queue.Conservation

/-!
# Who is at work

The *roster* of a consumer shows its running tasks with what they wait for,
the parties that can go on, the clock, the queue, and the deletions that the
queue has refused.  Whatever a consumer does shows there in one of few ways.
A turn of a task leaves the task waiting, though not beyond the time that it
had, or ends it; everything else that takes no time leaves the running tasks
alone and may have new ones begin.

## Main results

* `taskTurn_worked` — a turn of a task.
* `loopTurn_act` — a turn of the loop.
* `Move.roster` — every move.
-/

namespace ProductCatalog.Consumer

open Queue (Delivery)

/--
The latest instant at which a task in a state can be over, if nobody who can
go on is kept waiting.
-/
def TaskState.latest (s : Settings) (now : Nat) : TaskState → Nat
  | .ready => now + s.handlerTimeout + s.deleteTimeout
  | .handling _ _ wakeAt => max now wakeAt + s.deleteTimeout
  | .deleting _ _ wakeAt => max now wakeAt

/-- The deletion that the queue has refused, and why. -/
def Incident.refusal? : Incident → Option (Delivery × TransportError)
  | deleteFailed d error => some (d, error)
  | _ => none

/-- The deletions refused, in order. -/
def refusals (history : List (Nat × Incident)) : List (Delivery × TransportError) :=
  history.filterMap fun x => x.2.refusal?

theorem mem_refusals {history : List (Nat × Incident)} {d : Delivery} {error : TransportError} :
    (d, error) ∈ refusals history ↔ ∃ t, (t, .deleteFailed d error) ∈ history := by
  constructor
  · intro hmem
    obtain ⟨⟨t, i⟩, hi, hrefusal⟩ := List.mem_filterMap.1 hmem
    cases i with
    | deleteFailed d' error' =>
        obtain ⟨rfl, rfl⟩ := Prod.mk.inj (Option.some.inj hrefusal)
        exact ⟨t, hi⟩
    | _ => cases hrefusal
  · rintro ⟨t, hi⟩
    exact List.mem_filterMap.2 ⟨_, hi, rfl⟩

/-- What shows of a consumer about work and time. -/
structure Roster where
  settings : Settings
  now : Nat
  queue : Queue
  tasks : List Task
  turns : List Party
  refusals : List (Delivery × TransportError)

/-- The roster of a consumer. -/
def roster (c : Consumer) : Roster where
  settings := c.settings
  now := c.now
  queue := c.queue
  tasks := c.tasks
  turns := c.turns
  refusals := refusals c.history

/-! ## Changes of a roster -/

namespace Roster

/-- A deletion's refusal, if it is refused. -/
def refused (d : Delivery) : Except TransportError Unit → List (Delivery × TransportError)
  | .ok () => []
  | .error error => [(d, error)]

/-- The task of a delivery is gone, and some parties have got turns. -/
def without (r : Roster) (d : Delivery) (turns : List Party) : Roster :=
  { r with
    tasks := r.tasks.filter fun task => task.delivery.number != d.number
    turns := turns }

/-- No task loses its turn. -/
def Keeps (r : Roster) (turns : List Party) : Prop :=
  ∀ task ∈ r.tasks, .task task.delivery.number ∈ r.turns → .task task.delivery.number ∈ turns

/-- What comes of a turn of a delivery's task that has time up to a limit. -/
inductive Worked (r : Roster) (d : Delivery) (limit : Nat) : Roster → Prop
  /-- The task waits. -/
  | parked (state : TaskState) (alarm : Nat) (hready : state ≠ .ready)
      (hlimit : state.latest r.settings r.now ≤ limit) :
      Worked r d limit { r with
        tasks := r.tasks.map fun task =>
          if task.delivery.number = d.number then { task with state := state, alarm := alarm }
          else task }
  /-- The task is over. -/
  | ended {turns} (hturns : r.turns ⊆ turns) : Worked r d limit (r.without d turns)
  /-- The task has tried to delete its message and is over. -/
  | deleted {turns} (hturns : r.turns ⊆ turns) :
      Worked r d limit ({ r with
        queue := (r.queue.delete d.token).1
        refusals := r.refusals ++ refused d (r.queue.delete d.token).2 }.without d turns)

/-- What else can be done without any time passing. -/
inductive Act (r : Roster) : Roster → Prop
  /-- Turns are given out, and faults and beginnings of receives are counted. -/
  | counted {turns} (hturns : r.Keeps turns) (receives : Nat) (faults : Queue.Faults) :
      Act r { r with
        queue := { r.queue with receives := receives, faults := faults }
        turns := turns }
  /-- A look at the queue has a task begin for each delivery that it brings. -/
  | looked {turns} (hturns : r.Keeps turns) (max receives : Nat) (faults : Queue.Faults)
      (hnew : ∀ d ∈ (r.queue.look r.now max).2, .task d.number ∈ turns) :
      Act r { r with
        queue := { (r.queue.look r.now max).1 with receives := receives, faults := faults }
        tasks := r.tasks ++ (r.queue.look r.now max).2.map fun d => ⟨d, .ready, 0⟩
        turns := turns }
  | sent {turns} (hturns : r.Keeps turns) (receives : Nat) (faults : Queue.Faults)
      (body : Text.Bytes) :
      Act r { r with
        queue := { r.queue.push body with receives := receives, faults := faults }
        turns := turns }

/-- What a move does. -/
inductive Step (r : Roster) : Roster → Prop
  | acted {r'} (h : Act r r') : Step r r'
  | worked {task r'} (hmem : task ∈ r.tasks)
      (h : Worked { r with turns := r.turns.erase (.task task.delivery.number) } task.delivery
        (task.state.latest r.settings r.now) r') : Step r r'
  /-- Time passes, but nobody who waits for it is passed over. -/
  | passed {turns} (hturns : r.turns ⊆ turns) (instant : Nat)
      (hwake : ∀ task ∈ r.tasks, ∀ wakeAt, task.wakeAt? = some wakeAt → instant ≤ wakeAt) :
      Step r { r with now := max r.now instant, turns := turns }
  /-- Leases are kept in another order. -/
  | reordered {leases} (hperm : leases.Perm r.queue.leased) :
      Step r { r with queue := { r.queue with leased := leases } }

variable {r r' : Roster}

theorem keeps_of_subset {turns : List Party} (h : r.turns ⊆ turns) : r.Keeps turns :=
  fun _ _ hturn => h hturn

theorem keeps_refl (r : Roster) : r.Keeps r.turns := fun _ _ hturn => hturn

namespace Act

/-- Giving out turns, and nothing else. -/
theorem given {turns : List Party} (hturns : r.Keeps turns) : Act r { r with turns := turns } :=
  .counted hturns r.queue.receives r.queue.faults

/-- Turns that no task loses, and counts, may change before an act as well. -/
theorem of_counted {turns : List Party} (hturns : r.Keeps turns) (receives : Nat)
    (faults : Queue.Faults)
    (h : Act { r with
      queue := { r.queue with receives := receives, faults := faults }
      turns := turns } r') : Act r r' := by
  have hkeeps : ∀ {turns' : List Party}, Keeps { r with
      queue := { r.queue with receives := receives, faults := faults }
      turns := turns } turns' → r.Keeps turns' :=
    fun h task htask hturn => h task htask (hturns task htask hturn)
  cases h with
  | counted hturns' receives' faults' => exact .counted (hkeeps hturns') receives' faults'
  | looked hturns' max receives' faults' hnew =>
      exact .looked (hkeeps hturns') max receives' faults' hnew
  | sent hturns' receives' faults' body => exact .sent (hkeeps hturns') receives' faults' body

end Act

theorem Worked.now_eq {d : Delivery} {limit : Nat} (h : r.Worked d limit r') : r'.now = r.now := by
  cases h <;> rfl

theorem Act.now_eq (h : r.Act r') : r'.now = r.now := by
  cases h <;> rfl

/-- Nothing changes how long leases run. -/
theorem Step.visibility_eq (h : r.Step r') : r'.queue.visibility = r.queue.visibility := by
  cases h with
  | acted hact => cases hact <;> rfl
  | worked _ hworked =>
      cases hworked with
      | parked | ended => rfl
      | deleted => exact Queue.visibility_delete ..
  | passed | reordered => rfl

end Roster

/-! ## Incidents that do not show -/

variable (c : Consumer)

/-- An incident shows only as far as it is a refusal. -/
theorem roster_note (i : Incident) :
    (c.note i).roster = { c.roster with refusals := c.roster.refusals ++ i.refusal?.toList } := by
  have hrefusals : refusals (c.note i).history = refusals c.history ++ i.refusal?.toList := by
    rw [note, refusals, refusals, List.filterMap_append]
    cases h : i.refusal? <;> simp [h]
  rw [roster, hrefusals]
  rfl

theorem roster_note_of_none {i : Incident} (h : i.refusal? = none) :
    (c.note i).roster = c.roster := by
  rw [roster_note, h]
  exact congrArg (fun refusals => { c.roster with refusals := refusals }) (List.append_nil _)

/-- Doing one thing after another shows no more than doing each. -/
private theorem roster_foldl {α : Type} {f : Consumer → α → Consumer}
    (hf : ∀ c a, (f c a).roster = c.roster) (xs : List α) (c : Consumer) :
    (xs.foldl f c).roster = c.roster := by
  induction xs generalizing c with
  | nil => rfl
  | cons x rest ih => exact (ih (f c x)).trans (hf c x)

/-! ## Turns of tasks -/

section Task

variable (task : Task)

theorem roster_wakeLoop :
    ∃ turns, c.turns ⊆ turns ∧ c.wakeLoop.roster = { c.roster with turns := turns } := by
  unfold wakeLoop
  split
  · exact ⟨c.turns, List.Subset.refl _, rfl⟩
  · exact ⟨c.turns ++ [.loop], List.subset_append_left .., rfl⟩

theorem roster_endTask (ending : Ending) :
    ∃ turns, c.turns ⊆ turns ∧
      (c.endTask task ending).roster = c.roster.without task.delivery turns := by
  unfold endTask
  simp only
  split
  · obtain ⟨turns, hturns, hroster⟩ := roster_wakeLoop { c with
      tasks := c.tasks.filter fun other => other.delivery.number != task.delivery.number
      ended := c.ended ++ [(task.delivery, ending)] }
    exact ⟨turns, hturns, hroster⟩
  · exact ⟨c.turns, List.Subset.refl _, rfl⟩

/-- A task ends with an incident that is no refusal. -/
private theorem ended_note {i : Incident} (h : i.refusal? = none) (ending : Ending) (limit : Nat) :
    c.roster.Worked task.delivery limit ((c.note i).endTask task ending).roster := by
  obtain ⟨turns, hturns, hroster⟩ := (c.note i).roster_endTask task ending
  rw [hroster, roster_note_of_none c h]
  exact .ended hturns

/-- A task ends with the deletion of its message, successful or refused. -/
private theorem deleted_note {i : Incident} {q : Queue} {result : Except TransportError Unit}
    (hdelete : c.queue.delete task.delivery.token = (q, result))
    (h : i.refusal?.toList = Roster.refused task.delivery result) (ending : Ending) (limit : Nat) :
    c.roster.Worked task.delivery limit
      (({ c with queue := q }.note i).endTask task ending).roster := by
  obtain ⟨turns, hturns, hroster⟩ := ({ c with queue := q }.note i).roster_endTask task ending
  have hworked : c.roster.Worked task.delivery limit ({ c.roster with
      queue := (c.queue.delete task.delivery.token).1
      refusals := c.roster.refusals ++
        Roster.refused task.delivery (c.queue.delete task.delivery.token).2 }.without
          task.delivery turns) := .deleted hturns
  rw [hdelete] at hworked
  rw [hroster, roster_note, h]
  exact hworked

theorem finishDelete_worked (ending : Ending) (inTime : Bool) (limit : Nat) :
    c.roster.Worked task.delivery limit (c.finishDelete task ending inTime).roster := by
  cases inTime with
  | false => exact ended_note c task rfl ending limit
  | true =>
      simp only [finishDelete, if_true]
      split
      · rename_i q hdelete
        exact deleted_note c task hdelete rfl ending limit
      · rename_i q error hdelete
        exact deleted_note c task hdelete rfl ending limit

theorem beginDelete_worked (ending : Ending) {limit : Nat}
    (hlimit : c.now + c.settings.deleteTimeout ≤ limit) :
    c.roster.Worked task.delivery limit (c.beginDelete task ending).roster := by
  have hnoted : ({ c with deletions := c.deletions + 1 }.note
      (.deleteCalled task.delivery)).roster = c.roster := roster_note_of_none _ rfl
  have hle := Nat.min_le_right (c.deleteDelay c.deletions) c.settings.deleteTimeout
  simp only [beginDelete, settings_note]
  rw [← hnoted]
  cases hwait : min (c.deleteDelay c.deletions) c.settings.deleteTimeout with
  | zero => exact finishDelete_worked _ task ending _ limit
  | succ wait =>
      refine .parked (.deleting ending _ (c.now + (wait + 1))) c.alarms nofun ?_
      show max c.now (c.now + (wait + 1)) ≤ limit
      omega

theorem finishHandling_worked (event : LifecycleEvent) (outcome : Option Outcome) {limit : Nat}
    (hlimit : c.now + c.settings.deleteTimeout ≤ limit) :
    c.roster.Worked task.delivery limit (c.finishHandling task event outcome).roster := by
  match outcome with
  | none => exact ended_note c task rfl .redelivered limit
  | some (.failed reason) => exact ended_note c task rfl .redelivered limit
  | some .panicked => exact ended_note c task rfl .crashed limit
  | some .ok =>
      have hworked := (c.note (.handlerEnded task.delivery event .ok)).beginDelete_worked task
        .completed hlimit
      rwa [roster_note_of_none c rfl] at hworked

/-- The time of a handler and the time of a deletion are all that a task has. -/
theorem callHandler_worked (event : LifecycleEvent) (handler : Handler) {limit : Nat}
    (hlimit : c.now + c.settings.handlerTimeout + c.settings.deleteTimeout ≤ limit) :
    c.roster.Worked task.delivery limit (c.callHandler task event handler).roster := by
  unfold callHandler
  simp only
  -- what the handler tells the log does not show
  have htold : ((handler.report event).foldl
      (fun (c : Consumer) (entry : LogEntry) => c.note (.told entry)) ({ c with
      calls := fun kind => if kind = event.kind then c.calls kind + 1 else c.calls kind
      service := handler.effect event c.service }.note
        (.handlerCalled task.delivery event))).roster = c.roster :=
    (roster_foldl (fun c entry => roster_note_of_none c rfl) _ _).trans (roster_note_of_none _ rfl)
  revert htold
  generalize (handler.report event).foldl
    (fun (c : Consumer) (entry : LogEntry) => c.note (.told entry)) _ = c'
  intro htold
  have hnow : c'.now = c.now := congrArg Roster.now htold
  have hsettings : c'.settings = c.settings := congrArg Roster.settings htold
  have hle : min (handler.reaction (c.calls event.kind) event).delay c'.settings.handlerTimeout ≤
      c.settings.handlerTimeout := hsettings ▸ Nat.min_le_right ..
  rw [← htold]
  cases hwait : min (handler.reaction (c.calls event.kind) event).delay
    c'.settings.handlerTimeout with
  | zero =>
      refine c'.finishHandling_worked task event _ ?_
      rw [hnow, hsettings]
      omega
  | succ wait =>
      refine .parked (.handling event _ (c'.now + (wait + 1))) c'.alarms nofun ?_
      show max c'.now (c'.now + (wait + 1)) + c'.settings.deleteTimeout ≤ limit
      rw [hwait] at hle
      rw [hnow, hsettings]
      omega

theorem process_worked {limit : Nat}
    (hlimit : c.now + c.settings.handlerTimeout + c.settings.deleteTimeout ≤ limit) :
    c.roster.Worked task.delivery limit (c.process task).roster := by
  have hshort : c.now + c.settings.deleteTimeout ≤ limit := by omega
  unfold process
  split
  · rename_i error _
    have hworked := (c.note (.undecodable task.delivery error)).beginDelete_worked task .discarded
      hshort
    rwa [roster_note_of_none c rfl] at hworked
  · rename_i event _
    split
    · have hworked := (c.note (.unhandled task.delivery event)).beginDelete_worked task .discarded
        hshort
      rwa [roster_note_of_none c rfl] at hworked
    · rename_i handler _
      exact c.callHandler_worked task event handler hlimit

end Task

/-- A turn of a task leaves it no more time than it had. -/
theorem taskTurn_worked {delivery : Nat} {task : Task}
    (hfind : c.tasks.find? (·.delivery.number = delivery) = some task) :
    c.roster.Worked task.delivery (task.state.latest c.settings c.now)
      (c.taskTurn delivery).roster := by
  unfold taskTurn
  rw [hfind]
  simp only
  cases hstate : task.state with
  | ready => exact c.process_worked task (Nat.le_refl _)
  | handling event outcome wakeAt =>
      refine c.finishHandling_worked task event outcome ?_
      exact Nat.add_le_add_right (Nat.le_max_left ..) _
  | deleting ending inTime wakeAt => exact c.finishDelete_worked task ending inTime _

/-! ## Turns of the loop -/

theorem roster_countEnded : c.countEnded.roster = c.roster := by
  unfold countEnded
  refine (roster_foldl ?_ _ _).trans rfl
  intro c x
  exact roster_note_of_none _ rfl

theorem roster_dispatch (batch : List Delivery) :
    (c.dispatch batch).roster = { c.roster with
      tasks := c.tasks ++ batch.map fun d => ⟨d, .ready, 0⟩
      turns := .loop :: (c.turns ++ batch.map fun d => .task d.number) } := by
  have hnoted : (c.note (.received batch)).roster = c.roster := roster_note_of_none c rfl
  rw [← hnoted]
  rfl

/-- Going on is to give oneself a turn. -/
theorem goOn_act (phase : Phase) : c.roster.Act (c.goOn phase).roster :=
  .given (Roster.keeps_of_subset (List.subset_cons_self ..))

/-- To wait is to do nothing. -/
theorem await_act (phase : Phase) : c.roster.Act (c.await phase).roster :=
  .given (Roster.keeps_refl _)

theorem drain_act : c.roster.Act c.drain.roster := by
  have hnoted : (c.note (.draining (c.tasks.length + c.ended.length))).roster = c.roster :=
    roster_note_of_none c rfl
  rw [← hnoted]
  exact goOn_act _ _

/-- A receive that looks has tasks begin if it ends, and has found nothing if it waits. -/
theorem poll_act (max deadline : Nat) :
    c.roster.Act (c.settle (c.queue.poll c.now max deadline)).roster := by
  rcases c.queue.poll_cases c.now max deadline with hpoll | ⟨hempty, poll, hpoll⟩
  · rw [hpoll, settle, roster_dispatch]
    refine .looked ?_ max c.queue.receives c.queue.faults ?_
    · intro task _ hturn
      exact List.mem_cons_of_mem _ (List.mem_append_left _ hturn)
    · intro d hd
      exact List.mem_cons_of_mem _ (List.mem_append_right _ (List.mem_map_of_mem hd))
  · have hlooked : c.roster.Act { c.roster with
        queue := (c.queue.look c.now max).1
        tasks := c.tasks ++ (c.queue.look c.now max).2.map fun d => ⟨d, .ready, 0⟩ } := by
      refine .looked (fun _ _ hturn => hturn) max c.queue.receives c.queue.faults ?_
      rw [roster, hempty]
      exact fun d hd => absurd hd List.not_mem_nil
    rw [hempty, List.map_nil, List.append_nil] at hlooked
    rw [hpoll]
    exact hlooked

theorem receiveFailed_act (receives : Nat) (faults : Queue.Faults) (error : TransportError) :
    c.roster.Act (c.settle ({ c.queue with receives := receives, faults := faults },
      .finished (.error error))).roster := by
  have hnoted : ({ c with
      queue := { c.queue with receives := receives, faults := faults } }.note
        (.receiveFailed error)).roster = { c.roster with
          queue := { c.queue with receives := receives, faults := faults } } :=
    roster_note_of_none _ rfl
  have hafter : ({ c with
      queue := { c.queue with receives := receives, faults := faults } }.note
        (.receiveFailed error)).roster.Act (c.settle
          ({ c.queue with receives := receives, faults := faults },
            .finished (.error error))).roster := by
    simp only [settle]
    split
    · exact goOn_act _ _
    · exact await_act _ _
  rw [hnoted] at hafter
  exact .of_counted (Roster.keeps_refl _) receives faults hafter

theorem beginReceive_act : c.roster.Act c.beginReceive.roster := by
  have hnoted : (c.note .receiveBegan).roster = c.roster := roster_note_of_none c rfl
  rw [← hnoted]
  obtain ⟨receives, faults, ⟨error, hreceive⟩ | hreceive⟩ :=
    c.queue.receive_cases c.now c.settings.maxMessages c.settings.waitTime
  · rw [beginReceive, hreceive]
    exact receiveFailed_act (c.note .receiveBegan) receives faults error
  · rw [beginReceive, hreceive]
    refine .of_counted (Roster.keeps_refl _) receives faults ?_
    exact poll_act { c.note .receiveBegan with
      queue := { c.queue with receives := receives, faults := faults } } _ _

/-- Within an instant the loop has tasks begin, and touches none that runs. -/
theorem loopTurn_act : c.roster.Act c.loopTurn.roster := by
  have hcounted := c.roster_countEnded
  unfold loopTurn
  cases c.phase with
  | idle | stopped => exact .given (Roster.keeps_refl _)
  | starting =>
      simp only
      have hnoted : (c.note .began).roster = c.roster := roster_note_of_none c rfl
      rw [← hnoted]
      exact goOn_act _ _
  | polling =>
      simp only
      rw [← hcounted]
      split
      · exact drain_act _
      · exact beginReceive_act _
  | receiving poll =>
      simp only
      split
      · exact c.drain_act
      · exact c.poll_act _ _
  | pausing wakeAt =>
      simp only
      split
      · exact c.drain_act
      · exact c.goOn_act _
  | draining =>
      simp only
      rw [← hcounted]
      split
      · have hnoted : ({ c.countEnded with phase := .stopped }.note
            (.stopped c.countEnded.report)).roster = c.countEnded.roster :=
          roster_note_of_none _ rfl
        rw [hnoted]
        exact .given (Roster.keeps_refl _)
      · exact .given (Roster.keeps_refl _)

/-! ## Moves -/

/-- A turn of a task that is over already does nothing. -/
private theorem keeps_of_find_none {delivery : Nat}
    (hfind : c.tasks.find? (·.delivery.number = delivery) = none) :
    c.roster.Keeps (c.turns.erase (.task delivery)) := by
  intro task htask hturn
  have hne : task.delivery.number ≠ delivery := by
    simpa using List.find?_eq_none.1 hfind task htask
  exact (List.mem_erase_of_ne fun heq => hne (Party.task.inj heq)).2 hturn

theorem roster_announce :
    ∃ turns, c.turns ⊆ turns ∧ c.announce.roster = { c.roster with turns := turns } := by
  unfold announce
  split
  · exact c.roster_wakeLoop
  · exact ⟨c.turns, List.Subset.refl _, rfl⟩

theorem roster_rouse :
    ∃ turns, c.turns ⊆ turns ∧ c.rouse.roster = { c.roster with turns := turns } := by
  unfold rouse
  split
  · exact c.roster_wakeLoop
  · exact c.roster_wakeLoop
  · exact ⟨c.turns, List.Subset.refl _, rfl⟩

theorem send_act (body : Text.Bytes) : c.roster.Act (c.send body).1.roster := by
  rcases c.queue.send_cases body with hsend | ⟨faults, error, hsend⟩
  · obtain ⟨turns, hturns, hroster⟩ := roster_announce { c with queue := c.queue.push body }
    simp only [send, hsend]
    rw [hroster]
    exact .sent (Roster.keeps_of_subset hturns) c.queue.receives c.queue.faults body
  · simp only [send, hsend]
    exact .counted (Roster.keeps_refl _) c.queue.receives faults

theorem publish_act (event : LifecycleEvent) : c.roster.Act (c.publish event).1.roster := by
  have hsent := c.send_act event.encode
  unfold publish
  split
  · rename_i c' hsend
    rw [hsend] at hsent
    rw [roster_note_of_none c' rfl]
    exact hsent
  · rename_i c' error hsend
    rw [hsend] at hsent
    exact hsent

theorem start_act : c.roster.Act c.start.roster := by
  unfold start
  split
  · obtain ⟨turns, hturns, hroster⟩ := roster_wakeLoop { c with phase := .starting }
    rw [hroster]
    exact .given (Roster.keeps_of_subset hturns)
  · exact .given (Roster.keeps_refl _)

theorem stop_act : c.roster.Act c.stop.roster := by
  obtain ⟨turns, hturns, hroster⟩ := roster_rouse { c with stopAsked := true }
  rw [stop, hroster]
  exact .given (Roster.keeps_of_subset hturns)

/-- Every move is a step of the roster. -/
theorem Move.roster {c c' : Consumer} (h : Move c c') : c.roster.Step c'.roster := by
  cases h with
  | turn party hparty =>
      cases party with
      | loop =>
          have hkeeps : c.roster.Keeps (c.turns.erase .loop) := by
            intro task _ hturn
            exact (List.mem_erase_of_ne (by simp)).2 hturn
          exact .acted (.of_counted hkeeps c.queue.receives c.queue.faults
            (loopTurn_act { c with turns := c.turns.erase .loop }))
      | task delivery =>
          cases hfind : c.tasks.find? (·.delivery.number = delivery) with
          | none =>
              have hidle : ({ c with turns := c.turns.erase (.task delivery) }.taskTurn
                  delivery) = { c with turns := c.turns.erase (.task delivery) } := by
                simp only [taskTurn, hfind]
              rw [turnOf, hidle]
              exact .acted (.given (c.keeps_of_find_none hfind))
          | some task =>
              have hnumber : task.delivery.number = delivery := by
                simpa using List.find?_some hfind
              subst hnumber
              exact .worked (List.mem_of_find?_eq_some hfind) (taskTurn_worked { c with
                turns := c.turns.erase (.task task.delivery.number) } hfind)
  | pass instant halarms =>
      refine .passed (List.subset_append_left ..) instant ?_
      intro task htask wakeAt hwake
      refine halarms (wakeAt, task.alarm, .task task.delivery.number) ?_
      refine List.mem_append_right _ (List.mem_filterMap.2 ⟨task, htask, ?_⟩)
      rw [hwake]
      rfl
  | start => exact .acted c.start_act
  | stop => exact .acted c.stop_act
  | send body => exact .acted (c.send_act body)
  | publish event => exact .acted (c.publish_act event)
  | fail faults =>
      exact .acted (.counted (Roster.keeps_refl _) c.queue.receives faults)
  | reorder leases hperm => exact .reordered hperm

end ProductCatalog.Consumer
