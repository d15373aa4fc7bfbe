import ProductCatalog.Proofs.Consumer.Outlook

/-!
# No delivery holds up another

A handler starts at the instant at which its delivery is received, and this
instant depends on nothing that other handlers do.  However long they take,
however they end and however slowly their messages are deleted: as long as no
lease runs out, the loop receives the same batches at the same instants.

## Main definitions

* `Order`, `Carries` — what is done to a consumer, and what comes of it.

## Main results

* `Obeys.outlook_eq` — loops that see the same go on seeing the same.
* `exists_carries` — whatever is done to a consumer, something comes of it.
* `handlers_start_at_once` — when handlers start, and that this depends on no
  other handler.
-/

namespace ProductCatalog

namespace Queue

/-- A send depends on what a receive sees, and so does what it leaves to be seen. -/
theorem send_bare (q : Queue) (body : Text.Bytes) :
    (q.bare.send body).2 = (q.send body).2 ∧ (q.bare.send body).1.bare = (q.send body).1.bare := by
  have hfaults : q.bare.faults.sends = q.faults.sends := rfl
  unfold send
  rw [hfaults]
  split
  · exact ⟨rfl, rfl⟩
  · exact ⟨rfl, rfl⟩

end Queue

namespace Consumer

open Queue (Delivery)

/-! ## From outside -/

/-- What can be done to a consumer. -/
inductive Order
  | start
  | stop
  | send (body : Text.Bytes)
  | publish (event : LifecycleEvent)
  /-- The queue is told how many of its next operations shall fail. -/
  | fail (faults : Queue.Faults)
  /-- The loop takes all the turns that it has, and tasks may take some of theirs. -/
  | yield
  /-- A span of time passes, and everything is done that is due before its end. -/
  | pass (span : Nat)

/-- The time that an order takes. -/
def Order.span : Order → Nat
  | pass span => span
  | start | stop | send _ | publish _ | fail _ | yield => 0

/-- What comes of an order, if something holds whenever anything happens meanwhile. -/
inductive Obeys (P : Consumer → Prop) (c : Consumer) : Order → Consumer → Prop
  | start : Obeys P c .start c.start
  | stop : Obeys P c .stop c.stop
  | send (body : Text.Bytes) : Obeys P c (.send body) (c.send body).1
  | publish (event : LifecycleEvent) : Obeys P c (.publish event) (c.publish event).1
  | fail (faults : Queue.Faults) :
      Obeys P c (.fail faults) { c with queue := { c.queue with faults := faults } }
  | yield {c' : Consumer} (h : GoesOn P 0 c c') (hdone : .loop ∉ c'.turns) : Obeys P c .yield c'
  | pass {span : Nat} {c' : Consumer} (h : GoesOn P (c.now + span) c c')
      (hdone : c'.step? (c.now + span) = none) : Obeys P c (.pass span) (c'.ring (c.now + span))

/-- What comes of orders, one after another. -/
inductive Carries (P : Consumer → Prop) : Consumer → List Order → Consumer → Prop
  | nil {c : Consumer} : Carries P c [] c
  | cons {c c' c'' : Consumer} {order : Order} {orders : List Order} (h : Obeys P c order c')
      (hrest : Carries P c' orders c'') : Carries P c (order :: orders) c''

section

variable (c : Consumer)

/-- The loop sees that it is given a turn. -/
theorem outlook_given (hopen : c.phase.seen ≠ .stopped) {turns : List Party}
    (hloop : .loop ∈ turns) :
    outlook { c with turns := turns } = { c.outlook with turn := some c.now } := by
  rw [outlook, if_pos ⟨hopen, hloop⟩]
  rfl

theorem outlook_wakeLoop (hopen : c.phase.seen ≠ .stopped) :
    c.wakeLoop.outlook = { c.outlook with turn := some c.now } := by
  have hloop := c.mem_wakeLoop
  rw [wakeLoop_record] at hloop ⊢
  exact c.outlook_given hopen hloop

/-- Starting the run depends on what the loop sees. -/
theorem outlook_start :
    c.start.outlook =
      if c.outlook.phase = .idle then { c.outlook with phase := .starting, turn := some c.now }
      else c.outlook := by
  have hidle : c.outlook.phase = .idle ↔ c.phase = .idle := by
    show c.phase.seen = .idle ↔ _
    cases c.phase <;> simp [Phase.seen]
  simp only [hidle]
  unfold start
  split
  · rw [outlook_wakeLoop _ (by simp [Phase.seen])]
    rfl
  · rfl

theorem outlook_stop :
    c.stop.outlook =
      { c.outlook with
        asked := true
        turn := if c.outlook.phase.sleeps then some c.now else c.outlook.turn } := by
  have hsleeps : c.outlook.phase.sleeps = c.phase.sleeps := by
    show c.phase.seen.sleeps = _
    cases c.phase <;> rfl
  rw [stop, rouse_eq, hsleeps]
  show outlook (if c.phase.sleeps then _ else _) = _
  split
  · next h =>
      have hopen : c.phase.seen ≠ .stopped := by
        intro hclosed
        cases hphase : c.phase <;> simp [hphase, Phase.seen, Phase.sleeps] at h hclosed
      exact outlook_wakeLoop { c with stopAsked := true } hopen
  · rfl

theorem outlook_announce :
    c.announce.outlook =
      match c.outlook.phase with
      | .receiving _ => { c.outlook with turn := some c.now }
      | _ => c.outlook := by
  have hphase : c.outlook.phase = c.phase.seen := rfl
  rw [hphase]
  unfold announce
  cases h : c.phase with
  | receiving poll => exact outlook_wakeLoop _ (by simp [h, Phase.seen])
  | _ => rfl

end

variable {P : Consumer → Prop} {c c' d d' c₀ c₀' : Consumer} {order : Order}

/-- Loops that see the same see the same of a message that is sent. -/
theorem outlook_send (h : c.outlook = c'.outlook) (hnow : c.now = c'.now) (body : Text.Bytes) :
    (c.send body).1.outlook = (c'.send body).1.outlook := by
  have hbare : c.queue.bare = c'.queue.bare := congrArg Outlook.queue h
  have hresult : (c.queue.send body).2 = (c'.queue.send body).2 := by
    rw [← (c.queue.send_bare body).1, ← (c'.queue.send_bare body).1, hbare]
  have hleft : (c.queue.send body).1.bare = (c'.queue.send body).1.bare := by
    rw [← (c.queue.send_bare body).2, ← (c'.queue.send_bare body).2, hbare]
  -- what the loop sees with another queue
  have hqueue : ∀ q q' : Queue, q.bare = q'.bare →
      outlook { c with queue := q } = outlook { c' with queue := q' } := by
    intro q q' hq
    show { c.outlook with queue := q.bare } = { c'.outlook with queue := q'.bare }
    rw [h, hq]
  unfold send
  generalize c.queue.send body = sent at *
  generalize c'.queue.send body = sent' at *
  obtain ⟨q, result⟩ := sent
  obtain ⟨q', result'⟩ := sent'
  obtain rfl : result = result' := hresult
  cases result with
  | error error => exact hqueue q q' hleft
  | ok =>
      simp only
      rw [outlook_announce, outlook_announce, hqueue q q' hleft]
      simp only [hnow]

theorem outlook_publish (c : Consumer) (event : LifecycleEvent) :
    (c.publish event).1.outlook = (c.send event.encode).1.outlook := by
  unfold publish
  split
  · next sent hsend =>
      rw [hsend]
      exact outlook_note_quiet sent rfl
  · next sent error hsend => rw [hsend]

theorem Obeys.now_eq (h : Obeys P c order d) : d.now = c.now + order.span := by
  cases h with
  | start => exact c.start_act.now_eq
  | stop => exact c.stop_act.now_eq
  | send body => exact (c.send_act body).now_eq
  | publish event => exact (c.publish_act event).now_eq
  | fail faults => rfl
  | yield h =>
      obtain ⟨hge, hle⟩ := h.now_bounds
      exact Nat.le_antisymm (hle.trans_eq (Nat.max_eq_left (Nat.zero_le _))) hge
  | pass h =>
      obtain ⟨-, hle⟩ := h.now_bounds
      exact Nat.max_eq_right (by omega)

/-- Carrying an order out is running on a patient clock. -/
theorem Obeys.patientRuns (h : Obeys P c order d) (hruns : PatientRuns c₀ c) :
    PatientRuns c₀ d := by
  have hnow := h.now_eq
  cases h with
  | start => exact hruns.prompt .start hnow
  | stop => exact hruns.prompt .stop hnow
  | send body => exact hruns.prompt (.send body) hnow
  | publish event => exact hruns.prompt (.publish event) hnow
  | fail faults => exact hruns.prompt (.fail faults) hnow
  | yield h => exact h.patientRuns hruns
  | pass h hdone =>
      refine (h.patientRuns hruns).move (.pass _ (le_of_step_none hdone)) fun _ => ?_
      exact idle_of_step_none hdone

/-- A span of time passes if nothing is left to do before its end after a number of steps. -/
theorem Obeys.of_steps {span n : Nat} (h : (∀ k < n, P (steps (c.now + span) k c)) ∧
    ((steps (c.now + span) n c).step? (c.now + span)).isNone = true) :
    Obeys P c (.pass span) ((steps (c.now + span) n c).ring (c.now + span)) :=
  .pass (.of_steps h.1) (Option.isNone_iff_eq_none.1 h.2)

/-- Loops that see the same at an instant see the same after an order. -/
theorem Obeys.outlook_eq (h : Obeys Spared c order d) (h' : Obeys Spared c' order d')
    (hfresh : c₀.Fresh) (hqueue : c₀.queue.Sound) (hruns : PatientRuns c₀ c)
    (hfresh' : c₀'.Fresh) (hqueue' : c₀'.queue.Sound) (hruns' : PatientRuns c₀' c')
    (hsame : c.outlook = c'.outlook) (hnow : c.now = c'.now) : d.outlook = d'.outlook := by
  cases h with
  | start =>
      cases h'
      rw [outlook_start, outlook_start, hsame, hnow]
  | stop =>
      cases h'
      rw [outlook_stop, outlook_stop, hsame, hnow]
  | send body =>
      cases h'
      exact outlook_send hsame hnow body
  | publish event =>
      cases h'
      rw [outlook_publish, outlook_publish]
      exact outlook_send hsame hnow _
  | fail faults =>
      cases h'
      have hbare : c.queue.bare = c'.queue.bare := congrArg Outlook.queue hsame
      show { c.outlook with
          queue := { c.queue.bare with faults := { faults with deletes := 0 } } } =
        { c'.outlook with
          queue := { c'.queue.bare with faults := { faults with deletes := 0 } } }
      rw [hsame, hbare]
  | yield h hdone =>
      cases h' with
      | yield h' hdone' =>
          have hmem := h.outlook_mem (next_zero_eq_none hdone) hfresh hqueue hruns
          have hmem' := h'.outlook_mem (next_zero_eq_none hdone') hfresh' hqueue' hruns'
          exact Part.mem_unique hmem (hsame ▸ hmem')
  | @pass span settled h hdone =>
      cases h' with
      | @pass _ settled' h' hdone' =>
          rw [← hnow] at h' hdone' ⊢
          have hmem := h.outlook_mem (next_eq_none hdone) hfresh hqueue hruns
          have hmem' := h'.outlook_mem (next_eq_none hdone') hfresh' hqueue' hruns'
          obtain ⟨-, hle⟩ := h.now_bounds
          obtain ⟨-, hle'⟩ := h'.now_bounds
          rw [outlook_ring (idle_of_step_none hdone) (by omega) (le_of_step_none hdone),
            outlook_ring (idle_of_step_none hdone') (by omega) (le_of_step_none hdone'),
            Part.mem_unique hmem (hsame ▸ hmem')]

namespace Carries

variable {orders : List Order}

theorem patientRuns (h : Carries P c orders d) (hruns : PatientRuns c₀ c) : PatientRuns c₀ d := by
  induction h with
  | nil => exact hruns
  | cons h _ ih => exact ih (h.patientRuns hruns)

/-- Loops that see the same at the same time go on doing so, whatever is done to both. -/
theorem outlook_eq (h : Carries Spared c orders d) (h' : Carries Spared c' orders d')
    (hfresh : c₀.Fresh) (hqueue : c₀.queue.Sound) (hruns : PatientRuns c₀ c)
    (hfresh' : c₀'.Fresh) (hqueue' : c₀'.queue.Sound) (hruns' : PatientRuns c₀' c')
    (hsame : c.outlook = c'.outlook) (hnow : c.now = c'.now) :
    d.outlook = d'.outlook ∧ d.now = d'.now := by
  induction h generalizing c' with
  | nil =>
      cases h'
      exact ⟨hsame, hnow⟩
  | cons h _ ih =>
      cases h' with
      | cons h' hrest' =>
          refine ih hrest' (h.patientRuns hruns) (h'.patientRuns hruns') ?_ ?_
          · exact h.outlook_eq h' hfresh hqueue hruns hfresh' hqueue' hruns' hsame hnow
          · rw [h.now_eq, h'.now_eq, hnow]

end Carries

variable {visibility : Nat}

/-- Whatever is done to a consumer, something comes of it. -/
theorem exists_carries (hfresh : c₀.Fresh) (hqueue : Queue.Reachable visibility c₀.queue)
    (hvisibility : 0 < visibility) (hwait : 0 < c₀.settings.waitTime) (hruns : PatientRuns c₀ c)
    (orders : List Order) : ∃ d, Carries (fun _ => True) c orders d := by
  have hsettles := fun {c} (hruns : PatientRuns c₀ c) limit =>
    hruns.exists_settled hfresh hqueue hvisibility hwait limit
  induction orders generalizing c with
  | nil => exact ⟨c, .nil⟩
  | cons order orders ih =>
      have hobeys : ∃ c', Obeys (fun _ => True) c order c' := by
        cases order with
        | start => exact ⟨_, .start⟩
        | stop => exact ⟨_, .stop⟩
        | send body => exact ⟨_, .send body⟩
        | publish event => exact ⟨_, .publish event⟩
        | fail faults => exact ⟨_, .fail faults⟩
        | yield =>
            obtain ⟨n, hdone⟩ := hsettles hruns 0
            refine ⟨_, .yield (.of_steps (n := n) fun _ _ => trivial) ?_⟩
            rw [idle_of_step_none hdone]
            exact List.not_mem_nil
        | pass span =>
            obtain ⟨n, hdone⟩ := hsettles hruns (c.now + span)
            exact ⟨_, .of_steps ⟨fun _ _ => trivial, Option.isNone_iff_eq_none.2 hdone⟩⟩
      obtain ⟨c', hobeys⟩ := hobeys
      obtain ⟨d, hcarries⟩ := ih (hobeys.patientRuns hruns)
      exact ⟨d, .cons hobeys hcarries⟩

/-! ## When handlers start -/

/-- A handler starts at the instant at which its delivery is received, whatever else is going on:
before time passes, it has been called.  If what handlers do is changed, or how long deletions
take, the same batches are received at the same instants and the same handlers start, as long as
no lease runs out. -/
theorem handlers_start_at_once (hfresh : c₀.Fresh) (hqueue : Queue.Reachable visibility c₀.queue)
    (hvisibility : 0 < visibility) (hwait : 0 < c₀.settings.waitTime) :
    (∀ c, PatientRuns c₀ c → ∀ t d event,
      ReceivedAt c.history t d → Handled c₀.handlers d event →
        (∀ t' event', (t', .handlerCalled d event') ∈ c.history → t' = t ∧ event' = event) ∧
        (t ≠ c.now → (t, .handlerCalled d event) ∈ c.history) ∧
        ∃ n, (steps c.now n c).now = c.now ∧
          (t, .handlerCalled d event) ∈ (steps c.now n c).history) ∧
    (∀ orders, ∃ c, Carries (fun _ => True) c₀ orders c) ∧
    ∀ handlers deleteDelay,
      (∀ kind, (handlers.get kind).isSome = (c₀.handlers.get kind).isSome) →
      ∀ orders c c', Carries Spared c₀ orders c →
        Carries Spared { c₀ with handlers := handlers, deleteDelay := deleteDelay } orders c' →
          c'.now = c.now ∧ receives c'.history = receives c.history ∧
            ∀ t d event, t ≠ c.now →
              ((t, .handlerCalled d event) ∈ c'.history ↔
                (t, .handlerCalled d event) ∈ c.history) := by
  have hsound := hqueue.sound
  refine ⟨fun c hruns t d event hreceived hhandled => ⟨fun t' event' hcalled => ?_, ?_, ?_⟩,
    exists_carries hfresh hqueue hvisibility hwait .refl,
    fun handlers deleteDelay hkinds orders c c' h h' => ?_⟩
  · have horderly := hruns.runs.orderly hfresh hsound
    obtain ⟨hreceived', hevent, -⟩ := (hruns.immediate hfresh hsound).called t' d event' hcalled
    exact ⟨hreceived'.unique horderly.books.received_nodup.of_map hreceived,
      Except.ok.inj (hevent.symm.trans hhandled.1)⟩
  · intro hover
    exact (hruns.called_iff_of_over hfresh hsound hover).2 ⟨hreceived, hhandled⟩
  · obtain ⟨n, hdone⟩ := hruns.exists_settled hfresh hqueue hvisibility hwait c.now
    obtain ⟨hge, hle⟩ := c.now_steps c.now n
    have hsettled := hruns.of_steps c.now n
    obtain ⟨news, hhistory⟩ :=
      hruns.runs.history_extends hfresh hsound (PatientRuns.refl.of_steps c.now n).runs
    refine ⟨n, Nat.le_antisymm (hle.trans_eq (Nat.max_self _)) hge, ?_⟩
    refine (hsettled.called_iff_of_idle hfresh hsound (idle_of_step_none hdone)).2 ⟨?_, hhandled⟩
    rw [← hhistory]
    exact hreceived.append news
  · have hfresh' : Fresh { c₀ with handlers := handlers, deleteDelay := deleteDelay } :=
      ⟨hfresh.phase, hfresh.tasks, hfresh.ended, hfresh.report, hfresh.turns, hfresh.history⟩
    obtain ⟨hsame, hnow⟩ := h.outlook_eq h' hfresh hsound .refl hfresh' hsound .refl rfl rfl
    have hreceives : receives c.history = receives c'.history := congrArg Outlook.receives hsame
    refine ⟨hnow.symm, hreceives.symm, fun t d event hover => ?_⟩
    rw [(h.patientRuns .refl).called_iff_of_over hfresh hsound hover,
      (h'.patientRuns .refl).called_iff_of_over hfresh' hsound (hnow ▸ hover),
      ← receivedAt_receives, ← hreceives, receivedAt_receives, Handled, Handled, hkinds]

/-- A consumer that takes single messages, and whose handler need not take the first creation as
it takes the others. -/
private def uneven (first : Reaction) (deleteDelay : Nat → Nat) : Consumer where
  settings := { maxMessages := 1 }
  handlers := { created := some (.ofScript [first, {}]) }
  deleteDelay := deleteDelay
  queue := { visibility := 30000 }

/-- A creation is published, and after a while another one. -/
private def twice (event : LifecycleEvent) : List Order :=
  [.publish event, .start, .pass 15, .publish event, .pass 5]

/-- The second creation is handled when it comes, whether the first one is still being handled,
or has been handled and its message is still being deleted. -/
theorem handlers_start_at_once_of_slow_handler :
    ∃ c c' d, Carries Spared (uneven ⟨700, .ok⟩ fun _ => 0) (twice ⟨.created, .timed 0 0⟩) c ∧
      Carries Spared (uneven ⟨0, .ok⟩ fun _ => 40) (twice ⟨.created, .timed 0 0⟩) c' ∧
      c.tasks.length = 1 ∧ c'.tasks.length = 2 ∧ receives c'.history = receives c.history ∧
      (15, .handlerCalled d ⟨.created, .timed 0 0⟩) ∈ c.history ∧
      (15, .handlerCalled d ⟨.created, .timed 0 0⟩) ∈ c'.history := by
  let d : Delivery := ⟨⟨2, LifecycleEvent.encode ⟨.created, .timed 0 0⟩⟩, 2⟩
  obtain ⟨c, hcarries, hrunning, hnow, hreceived⟩ : ∃ c,
      Carries Spared (uneven ⟨700, .ok⟩ fun _ => 0) (twice ⟨.created, .timed 0 0⟩) c ∧
        c.tasks.length = 1 ∧ c.now = 20 ∧ ReceivedAt c.history 15 d := by
    refine ⟨_, .cons (.publish _) (.cons .start (.cons (.of_steps (n := 12) ?_)
      (.cons (.publish _) (.cons (.of_steps (n := 12) ?_) .nil)))), ?_⟩
    · decide +kernel
    · decide +kernel
    · decide +kernel
  obtain ⟨c', hcarries', hrunning'⟩ : ∃ c',
      Carries Spared (uneven ⟨0, .ok⟩ fun _ => 40) (twice ⟨.created, .timed 0 0⟩) c' ∧
        c'.tasks.length = 2 := by
    refine ⟨_, .cons (.publish _) (.cons .start (.cons (.of_steps (n := 12) ?_)
      (.cons (.publish _) (.cons (.of_steps (n := 12) ?_) .nil)))), ?_⟩
    · decide +kernel
    · decide +kernel
    · decide +kernel
  have hover : 15 ≠ c.now := by
    rw [hnow]
    decide
  have hhandled : Handled (uneven ⟨700, .ok⟩ fun _ => 0).handlers d ⟨.created, .timed 0 0⟩ :=
    ⟨by decide +kernel, rfl⟩
  have hfresh : (uneven ⟨700, .ok⟩ fun _ => 0).Fresh := ⟨rfl, rfl, rfl, rfl, rfl, rfl⟩
  obtain ⟨hcalls, -, hsame⟩ := handlers_start_at_once hfresh .empty (by decide) (by decide)
  obtain ⟨-, hcalled, -⟩ := hcalls c (hcarries.patientRuns .refl) 15 d _ hreceived hhandled
  obtain ⟨-, hreceives, hstarts⟩ :=
    hsame _ (fun _ => 40) (fun kind => by cases kind <;> rfl) _ c c' hcarries hcarries'
  exact ⟨c, c', d, hcarries, hcarries', hrunning, hrunning', hreceives, hcalled hover,
    (hstarts 15 d _ hover).2 (hcalled hover)⟩

end Consumer

end ProductCatalog
