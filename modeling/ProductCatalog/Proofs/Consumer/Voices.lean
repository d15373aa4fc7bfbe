import ProductCatalog.Proofs.Consumer.Course
import ProductCatalog.Proofs.Consumer.Moves
import ProductCatalog.Proofs.Queue.Conservation

/-!
# What handlers do

The *voices* of a history are its incidents that handlers bring about: that
they are called, what they tell the log, and how their calls end.  Nearly
everything that a consumer does is *silent*: it adds no voice, publishes
nothing, and has no handler begin to work.  What is left are a task that goes
on with its handler, and a publication.

## Main results

* `Silent.beginDelete`, `Silent.loopTurn` — what a task does after its
  handler, and what the loop does.
* `Silent.send`, `start`, `stop`, `ring` — what is done from outside.
-/

namespace ProductCatalog.Consumer

open Queue (Delivery)

/-! ## Reading the history -/

namespace Incident

/-- Whether a handler brings an incident about. -/
def isVoice : Incident → Bool
  | handlerCalled .. | told _ | handlerEnded .. | handlerTimedOut .. => true
  | published _ | began | receiveBegan | received _ | receiveFailed _ | undecodable ..
  | unhandled .. | deleteCalled _ | deleted _ | deleteFailed .. | deleteTimedOut _ | counted ..
  | draining _ | stopped _ => false

/-- The event that an incident has published. -/
def publication? : Incident → Option LifecycleEvent
  | published event => some event
  | _ => none

/-- The delivery and the event that a handler is called with. -/
def call? : Incident → Option (Delivery × LifecycleEvent)
  | handlerCalled d event => some (d, event)
  | _ => none

end Incident

/-- What handlers have brought about, in order. -/
def voices (history : List (Nat × Incident)) : List Incident :=
  (history.map (·.2)).filter Incident.isVoice

/-- The events published, in order. -/
def published (history : List (Nat × Incident)) : List LifecycleEvent :=
  history.filterMap fun x => x.2.publication?

/-- The deliveries and events that handlers have been called with, in order. -/
def called (history : List (Nat × Incident)) : List (Delivery × LifecycleEvent) :=
  history.filterMap fun x => x.2.call?

theorem mem_called {history : List (Nat × Incident)} {d : Delivery} {event : LifecycleEvent} :
    (d, event) ∈ called history ↔ ∃ t, (t, .handlerCalled d event) ∈ history := by
  constructor
  · intro hmem
    obtain ⟨⟨t, i⟩, hi, hcall⟩ := List.mem_filterMap.1 hmem
    cases i with
    | handlerCalled d' event' =>
        obtain ⟨rfl, rfl⟩ := Prod.mk.inj (Option.some.inj hcall)
        exact ⟨t, hi⟩
    | _ => cases hcall
  · rintro ⟨t, hi⟩
    exact List.mem_filterMap.2 ⟨_, hi, rfl⟩

section Note

variable (c : Consumer) (i : Incident)

theorem voices_note :
    voices (c.note i).history = voices c.history ++ if i.isVoice then [i] else [] := by
  rw [history_note, voices, voices, List.map_append, List.filter_append]
  cases h : i.isVoice <;> simp [h]

theorem published_note :
    published (c.note i).history = published c.history ++ i.publication?.toList := by
  rw [history_note, published, published, List.filterMap_append]
  cases h : i.publication? <;> simp [h]

theorem called_snoc (history : List (Nat × Incident)) (t : Nat) :
    called (history ++ [(t, i)]) = called history ++ i.call?.toList := by
  rw [called, called, List.filterMap_append]
  cases h : i.call? <;> simp [h]

theorem called_note : called (c.note i).history = called c.history ++ i.call?.toList :=
  called_snoc i c.history c.now

/-- Calls of handlers are voices. -/
theorem called_eq (history : List (Nat × Incident)) :
    called history = (voices history).filterMap Incident.call? := by
  rw [voices, List.filterMap_filter, List.filterMap_map, called]
  congr 1
  funext x
  obtain ⟨t, i⟩ := x
  cases i <;> rfl

theorem handlerCalls_eq : c.handlerCalls = (called c.history).map (·.2) := by
  rw [handlerCalls, called, List.map_filterMap]
  congr 1
  funext x
  obtain ⟨t, i⟩ := x
  cases i <;> rfl

/-- What a history tells of calls for a delivery is in the trail of the delivery. -/
theorem called_trail (history : List (Nat × Incident)) (d : Delivery) :
    called (trail history d) = (called history).filter fun call => call.1 = d := by
  rw [called, trail, List.filterMap_filter, called, List.filter_filterMap]
  congr 1
  funext x
  obtain ⟨t, i⟩ := x
  cases i with
  | handlerCalled other event =>
      by_cases hother : other = d <;>
        simp [Incident.about?, Incident.call?, Option.filter, hother]
  | _ => simp [Incident.call?]

end Note

/-- A message is announced when the queue has it already. -/
theorem queue_announce (c : Consumer) : c.announce.queue = c.queue := by
  unfold announce wakeLoop
  split
  · split <;> rfl
  · rfl

/-! ## Silence -/

/-- Whether a task waits for its handler. -/
def TaskState.isHandling : TaskState → Bool
  | .handling .. => true
  | .ready | .deleting .. => false

/-- No task waits for its handler. -/
def Prompt (c : Consumer) : Prop := ∀ task ∈ c.tasks, task.state.isHandling = false

/-- From one state to another no handler does anything, and nothing is published. -/
structure Silent (c c' : Consumer) : Prop where
  handlers : c'.handlers = c.handlers
  service : c'.service = c.service
  voices : voices c'.history = voices c.history
  published : published c'.history = published c.history
  sent : c.queue.sent <+: c'.queue.sent
  prompt : c.Prompt → c'.Prompt

namespace Silent

variable {c₀ c : Consumer} {task : Task}

theorem refl (c : Consumer) : Silent c c where
  handlers := rfl
  service := rfl
  voices := rfl
  published := rfl
  sent := List.prefix_refl _
  prompt h := h

theorem note (h : Silent c₀ c) {i : Incident} (hvoice : i.isVoice = false)
    (hpublication : i.publication? = none) : Silent c₀ (c.note i) where
  handlers := h.handlers
  service := h.service
  voices := by
    rw [voices_note, hvoice, ← h.voices]
    exact List.append_nil _
  published := by
    rw [published_note, hpublication, ← h.published]
    exact List.append_nil _
  sent := h.sent
  prompt := h.prompt

/-- Something has become of the queue, but nothing has been taken from what was sent to it. -/
theorem requeue (h : Silent c₀ c) {q : Queue} (hsent : c.queue.sent <+: q.sent) :
    Silent c₀ { c with queue := q } :=
  { h with sent := h.sent.trans hsent }

/-! ### Tasks -/

theorem wakeLoop (h : Silent c₀ c) : Silent c₀ c.wakeLoop := by
  unfold Consumer.wakeLoop
  split
  · exact h
  · exact { h with }

theorem endTask (h : Silent c₀ c) (ending : Ending) : Silent c₀ (c.endTask task ending) := by
  have hended : Silent c₀ { c with
      tasks := c.tasks.filter fun other => other.delivery.number != task.delivery.number
      ended := c.ended ++ [(task.delivery, ending)] } :=
    { h with
      prompt := fun hprompt other hother => h.prompt hprompt other (List.mem_of_mem_filter hother) }
  unfold Consumer.endTask
  simp only
  split
  · exact hended.wakeLoop
  · exact hended

/-- A task that waits for a deletion does not wait for its handler. -/
theorem park (h : Silent c₀ c) {state : TaskState} (hstate : state.isHandling = false) :
    Silent c₀ (c.park task state) :=
  { h with
    prompt := by
      intro hprompt other hother
      obtain ⟨before, hbefore, rfl⟩ := List.mem_map.1 hother
      split
      · exact hstate
      · exact h.prompt hprompt before hbefore }

theorem finishDelete (h : Silent c₀ c) (ending : Ending) (inTime : Bool) :
    Silent c₀ (c.finishDelete task ending inTime) := by
  cases inTime with
  | false => exact (h.note rfl rfl).endTask ending
  | true =>
      have hsent := c.queue.sent_delete task.delivery.token
      simp only [Consumer.finishDelete, if_true]
      split
      · rename_i q hdelete
        rw [hdelete] at hsent
        have hdeleted : Silent c₀ { c with queue := q } := h.requeue (hsent ▸ List.prefix_refl _)
        exact (hdeleted.note rfl rfl).endTask ending
      · rename_i q error hdelete
        rw [hdelete] at hsent
        have hrefused : Silent c₀ { c with queue := q } := h.requeue (hsent ▸ List.prefix_refl _)
        exact (hrefused.note rfl rfl).endTask ending

theorem beginDelete (h : Silent c₀ c) (ending : Ending) :
    Silent c₀ (c.beginDelete task ending) := by
  have hcalled : Silent c₀ ({ c with deletions := c.deletions + 1 }.note
      (.deleteCalled task.delivery)) := by
    have hbegun : Silent c₀ { c with deletions := c.deletions + 1 } := { h with }
    exact hbegun.note rfl rfl
  unfold Consumer.beginDelete
  simp only
  split
  · exact hcalled.finishDelete ending _
  · exact hcalled.park rfl

/-! ### The loop -/

theorem goOn (h : Silent c₀ c) (phase : Phase) : Silent c₀ (c.goOn phase) := { h with }

theorem await (h : Silent c₀ c) (phase : Phase) : Silent c₀ (c.await phase) := { h with }

theorem drain (h : Silent c₀ c) : Silent c₀ c.drain := (h.note rfl rfl).goOn .draining

theorem countEnded (h : Silent c₀ c) : Silent c₀ c.countEnded := by
  have hcounts : ∀ (xs : List (Delivery × Ending)) (c : Consumer), Silent c₀ c →
      Silent c₀ (xs.foldl (fun (c : Consumer) (x : Delivery × Ending) =>
        { c with report := c.report.count x.2 }.note (.counted x.1 x.2)) c) := by
    intro xs
    induction xs with
    | nil => exact fun _ h => h
    | cons x rest ih =>
        intro c h
        have hcounted : Silent c₀ { c with report := c.report.count x.2 } := { h with }
        exact ih _ (hcounted.note rfl rfl)
  exact hcounts c.ended { c with ended := [] } { h with }

/-- A task that begins does not wait for its handler yet. -/
theorem dispatch (h : Silent c₀ c) (batch : List Delivery) : Silent c₀ (c.dispatch batch) := by
  have hreceived : Silent c₀ (c.note (.received batch)) := h.note rfl rfl
  refine { hreceived with prompt := ?_ }
  intro hprompt task htask
  rcases List.mem_append.1 htask with hold | hnew
  · exact h.prompt hprompt task hold
  · obtain ⟨d, -, rfl⟩ := List.mem_map.1 hnew
    rfl

theorem poll (h : Silent c₀ c) (max deadline : Nat) :
    Silent c₀ (c.settle (c.queue.poll c.now max deadline)) := by
  have hlooked : Silent c₀ { c with queue := (c.queue.look c.now max).1 } :=
    h.requeue (List.prefix_refl _)
  rcases c.queue.poll_cases c.now max deadline with hpoll | ⟨-, poll, hpoll⟩
  · rw [hpoll]
    exact hlooked.dispatch _
  · rw [hpoll]
    exact hlooked.await _

theorem beginReceive (h : Silent c₀ c) : Silent c₀ c.beginReceive := by
  have hcounted : ∀ receives faults, Silent c₀ { c.note .receiveBegan with
      queue := { c.queue with receives := receives, faults := faults } } := by
    intro receives faults
    have hbegan : Silent c₀ (c.note .receiveBegan) := h.note rfl rfl
    exact hbegan.requeue (List.prefix_refl _)
  obtain ⟨receives, faults, ⟨error, hreceive⟩ | hreceive⟩ :=
    c.queue.receive_cases c.now c.settings.maxMessages c.settings.waitTime
  · have hfailed := @note _ _ (hcounted receives faults) (.receiveFailed error) rfl rfl
    rw [Consumer.beginReceive, hreceive]
    simp only [settle]
    split
    · exact hfailed.goOn _
    · exact hfailed.await _
  · rw [Consumer.beginReceive, hreceive]
    exact (hcounted receives faults).poll _ _

theorem loopTurn (h : Silent c₀ c) : Silent c₀ c.loopTurn := by
  have hcounted := h.countEnded
  unfold Consumer.loopTurn
  cases c.phase with
  | idle | stopped => exact h
  | starting => exact (h.note rfl rfl).goOn _
  | polling =>
      simp only
      split
      · exact hcounted.drain
      · exact hcounted.beginReceive
  | receiving poll =>
      simp only
      split
      · exact h.drain
      · exact h.poll _ _
  | pausing wakeAt =>
      simp only
      split
      · exact h.drain
      · exact h.goOn _
  | draining =>
      simp only
      split
      · have hstopped : Silent c₀ { c.countEnded with phase := .stopped } := { hcounted with }
        exact hstopped.note rfl rfl
      · exact hcounted

/-! ### From outside -/

theorem ring (h : Silent c₀ c) (instant : Nat) : Silent c₀ (c.ring instant) := { h with }

theorem start (h : Silent c₀ c) : Silent c₀ c.start := by
  unfold Consumer.start
  split
  · have hstarting : Silent c₀ { c with phase := .starting } := { h with }
    exact hstarting.wakeLoop
  · exact h

theorem stop (h : Silent c₀ c) : Silent c₀ c.stop := by
  have hasked : Silent c₀ { c with stopAsked := true } := { h with }
  unfold Consumer.stop rouse
  simp only
  split
  · exact hasked.wakeLoop
  · exact hasked.wakeLoop
  · exact hasked

theorem announce (h : Silent c₀ c) : Silent c₀ c.announce := by
  unfold Consumer.announce
  split
  · exact h.wakeLoop
  · exact h

theorem send (h : Silent c₀ c) (body : Text.Bytes) : Silent c₀ (c.send body).1 := by
  rcases c.queue.send_cases body with hsend | ⟨faults, error, hsend⟩
  · have hpushed : Silent c₀ { c with queue := c.queue.push body } :=
      h.requeue (List.prefix_append _ _)
    simp only [Consumer.send, hsend]
    exact hpushed.announce
  · simp only [Consumer.send, hsend]
    exact h.requeue (List.prefix_refl _)

end Silent

end ProductCatalog.Consumer
