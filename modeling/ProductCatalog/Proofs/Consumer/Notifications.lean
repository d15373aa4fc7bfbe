import ProductCatalog.Consumer.Notifications
import ProductCatalog.Proofs.Consumer.Accounting
import ProductCatalog.Proofs.Consumer.Voices
import ProductCatalog.Proofs.Event.Spelling

/-!
# Every event is reported

The handlers of notifications succeed at once.  A consumer that has them
leaves no delivery to redelivery: what is an event is reported as soon as it
is processed, and all else is discarded.  What handlers bring about in a run
is one report after another, and the notification service has counted them.

## Main results

* `Told.taskTurn`, `Told.publish` — a turn of a task, and a publication.
* `Notifications.called_of_done` — the one report, if any, for a delivery
  whose task is over.
* `Consumer.notifications_told` — a run with the handlers of notifications,
  from what is published to what is reported.
-/

namespace ProductCatalog

open Queue (Delivery Message)
open Consumer

namespace Notifications

/-- The event that a delivery brings, if its body is one. -/
def event? (d : Delivery) : Option LifecycleEvent := (decode d.message.body).toOption

/-- A delivery with the event that it brings. -/
def reading? (d : Delivery) : Option (Delivery × LifecycleEvent) := (event? d).map (d, ·)

/-- How the task of a delivery ends. -/
def verdict (d : Delivery) : Ending := if (event? d).isSome then .completed else .discarded

/-- What the log is told about an event. -/
def line (event : LifecycleEvent) : LogEntry :=
  ⟨.info, if event.kind = .created then "product created" else "product deleted",
    [("product_id", event.productId.text)]⟩

/-- What a report consists of: the call of a handler, what it tells the log, and its end. -/
def report (call : Delivery × LifecycleEvent) : List Incident :=
  [.handlerCalled call.1 call.2, .told (line call.2), .handlerEnded call.1 call.2 .ok]

/-- The service when it has been given events to report. -/
def tally (events : List LifecycleEvent) : NotificationService where
  created := events.countP (·.kind = .created)
  deleted := events.countP (·.kind = .deleted)

/-- The handler of a kind. -/
def handlerFor : EventKind → Handler
  | .created => createdHandler
  | .deleted => deletedHandler

theorem get_handlers (kind : EventKind) : handlers.get kind = some (handlerFor kind) := by
  cases kind <;> rfl

theorem reaction_handlerFor (kind : EventKind) (n : Nat) (event : LifecycleEvent) :
    (handlerFor kind).reaction n event = {} := by
  cases kind <;> rfl

/-- The handler of an event's kind reports the event as what it is. -/
theorem report_handlerFor (event : LifecycleEvent) :
    (handlerFor event.kind).report event = [line event] := by
  obtain ⟨kind, id⟩ := event
  cases kind <;> rfl

/-- It has the service count the event. -/
theorem effect_handlerFor (events : List LifecycleEvent) (event : LifecycleEvent) :
    (handlerFor event.kind).effect event (tally events) = tally (events ++ [event]) := by
  obtain ⟨kind, id⟩ := event
  cases kind <;> simp [handlerFor, createdHandler, deletedHandler, handlerOf, tally,
    NotificationService.productCreated, NotificationService.productDeleted]

/-! ## Runs -/

/-- Whatever handlers have brought about are reports, which the service has counted, and
whatever is published has been sent. -/
structure Told (c : Consumer) : Prop where
  handlers : c.handlers = Notifications.handlers
  prompt : c.Prompt
  service : c.service = tally c.handlerCalls
  voices : voices c.history = (called c.history).flatMap report
  published : ((published c.history).map LifecycleEvent.encode).Sublist
    (c.queue.sent.map (·.body))

namespace Told

variable {c c' : Consumer} {task : Task}

theorem fresh (hfresh : c.Fresh) (hhandlers : c.handlers = Notifications.handlers)
    (hservice : c.service = {}) : Told c where
  handlers := hhandlers
  prompt := by
    rw [Prompt, hfresh.tasks]
    exact fun _ htask => nomatch htask
  service := by
    rw [hservice, handlerCalls, hfresh.history]
    rfl
  voices := by
    rw [hfresh.history]
    rfl
  published := by
    rw [hfresh.history]
    exact List.nil_sublist _

theorem silent (h : Told c) (hsilent : Silent c c') : Told c' where
  handlers := hsilent.handlers.trans h.handlers
  prompt := hsilent.prompt h.prompt
  service := by
    rw [hsilent.service, handlerCalls_eq, called_eq, hsilent.voices, ← called_eq,
      ← handlerCalls_eq]
    exact h.service
  voices := by
    rw [called_eq, hsilent.voices, ← called_eq]
    exact h.voices
  published := by
    rw [hsilent.published]
    exact h.published.trans (hsilent.sent.map _).sublist

/-- What becomes of a call: the handler reports, has succeeded, and the message is deleted. -/
theorem callHandler_eq (c : Consumer) (task : Task) (event : LifecycleEvent) :
    c.callHandler task event (handlerFor event.kind) =
      ((({ c with
        calls := fun kind => if kind = event.kind then c.calls kind + 1 else c.calls kind
        service := (handlerFor event.kind).effect event c.service }.note
          (.handlerCalled task.delivery event)).note (.told (line event))).note
            (.handlerEnded task.delivery event .ok)).beginDelete task .completed := by
  simp [Consumer.callHandler, reaction_handlerFor, report_handlerFor, finishHandling]

theorem callHandler (h : Told c) (event : LifecycleEvent) :
    Told (c.callHandler task event (handlerFor event.kind)) := by
  rw [callHandler_eq]
  refine silent ?_ ((Silent.refl _).beginDelete .completed)
  refine ⟨h.handlers, h.prompt, ?_, ?_, ?_⟩
  · simp only [handlerCalls_eq, called_note, Incident.call?, Option.toList_none,
      Option.toList_some, List.append_nil, List.map_append, List.map_cons, List.map_nil]
    rw [← handlerCalls_eq, ← effect_handlerFor, ← h.service]
    rfl
  · simp only [voices_note, called_note, Incident.isVoice, Incident.call?, if_true,
      Option.toList_none, Option.toList_some, List.append_nil, List.append_assoc,
      List.flatMap_append, ← h.voices]
    rfl
  · simp only [published_note, Incident.publication?, Option.toList_none, List.append_nil]
    exact h.published

/-- What is an event is reported, and all else is to be deleted. -/
theorem process (h : Told c) : Told (c.process task) := by
  unfold Consumer.process
  split
  · rename_i error _
    have hnoted : Silent c (c.note (.undecodable task.delivery error)) :=
      (Silent.refl c).note rfl rfl
    exact h.silent (hnoted.beginDelete .discarded)
  · rename_i event _
    rw [h.handlers, get_handlers]
    exact h.callHandler event

/-- A turn of a task, which never waits for its handler. -/
theorem taskTurn (h : Told c) (delivery : Nat) : Told (c.taskTurn delivery) := by
  unfold Consumer.taskTurn
  split
  · exact h
  · rename_i task hfind
    have hprompt := h.prompt task (List.mem_of_find?_eq_some hfind)
    split
    · exact h.process
    · rename_i event outcome wakeAt hstate
      rw [hstate] at hprompt
      cases hprompt
    · rename_i ending inTime wakeAt _
      exact h.silent ((Silent.refl c).finishDelete ending inTime)

/-- What is published has been sent. -/
theorem publish (h : Told c) (event : LifecycleEvent) : Told (c.publish event).1 := by
  have hsent := h.silent ((Silent.refl c).send event.encode)
  rcases c.queue.send_cases event.encode with hsend | ⟨faults, error, hsend⟩
  · have hqueue : (c.send event.encode).1.queue = c.queue.push event.encode := by
      simp only [Consumer.send, hsend]
      exact queue_announce _
    have hpublish : (c.publish event).1 = (c.send event.encode).1.note (.published event) := by
      simp only [Consumer.publish, Consumer.send, hsend]
    have hpublished : Consumer.published (c.send event.encode).1.history =
        Consumer.published c.history :=
      ((Silent.refl c).send event.encode).published
    rw [hpublish]
    refine ⟨hsent.handlers, hsent.prompt, ?_, ?_, ?_⟩
    · rw [handlerCalls_eq, called_note]
      simp only [Incident.call?, Option.toList_none, List.append_nil]
      rw [← handlerCalls_eq]
      exact hsent.service
    · simp only [voices_note, called_note, Incident.isVoice, Incident.call?, Option.toList_none,
        List.append_nil, Bool.false_eq_true, if_false]
      exact hsent.voices
    · have hbodies : ((c.send event.encode).1.note (.published event)).queue.sent =
          c.queue.sent ++ [⟨c.queue.sent.length + 1, event.encode⟩] :=
        congrArg Queue.sent hqueue
      rw [published_note, hpublished, hbodies, List.map_append, List.map_append]
      simp only [Incident.publication?, Option.toList_some, List.map_cons, List.map_nil]
      exact h.published.append (List.Sublist.refl _)
  · have hpublish : (c.publish event).1 = (c.send event.encode).1 := by
      simp only [Consumer.publish, Consumer.send, hsend]
    rwa [hpublish]

theorem move (h : Told c) (hmove : Move c c') : Told c' := by
  cases hmove with
  | turn party =>
      have hturn : Told { c with turns := c.turns.erase party } := { h with }
      cases party with
      | loop => exact hturn.silent (Silent.refl _).loopTurn
      | task delivery => exact hturn.taskTurn delivery
  | pass instant => exact h.silent ((Silent.refl c).ring instant)
  | start => exact h.silent (Silent.refl c).start
  | stop => exact h.silent (Silent.refl c).stop
  | send body => exact h.silent ((Silent.refl c).send body)
  | publish event => exact h.publish event
  | fail faults => exact h.silent ((Silent.refl c).requeue (List.prefix_refl _))
  | reorder leases => exact h.silent ((Silent.refl c).requeue (List.prefix_refl _))

theorem run {c₀ : Consumer} (h : Told c₀) (hruns : Runs c₀ c) : Told c := by
  induction hruns with
  | refl => exact h
  | move _ hmove ih => exact ih.move hmove

/-- The log tells every event that a handler has been called with. -/
theorem mem_log (h : Told c) {call : Delivery × LifecycleEvent} (hcall : call ∈ called c.history) :
    line call.2 ∈ c.log := by
  have hvoice : .told (line call.2) ∈ Consumer.voices c.history := by
    rw [h.voices]
    exact List.mem_flatMap.2 ⟨call, hcall, List.mem_cons_of_mem _ List.mem_cons_self⟩
  obtain ⟨⟨t, i⟩, hx, rfl⟩ := List.mem_map.1 (List.mem_of_mem_filter hvoice)
  exact List.mem_filterMap.2 ⟨_, hx, rfl⟩

end Told

/-! ## What is reported of one delivery -/

section Course

variable {s : Settings} {d : Delivery} {ending : Ending} {trail : List (Nat × Incident)}

/-- A task that is to delete its message has reported the event that the message is. -/
theorem called_of_judged (h : Course s handlers d (.judged ending) trail) :
    ending = verdict d ∧ called trail = (reading? d).toList := by
  cases h with
  | undecodable hbody =>
      have hnone : event? d = none := by rw [event?, hbody]; rfl
      simp [verdict, reading?, hnone, called, Incident.call?]
  | @unhandled _ event _ hnone =>
      rw [get_handlers] at hnone
      cases hnone
  | @succeeded _ event _ _ h =>
      cases h with
      | called hbody hsome =>
          have hevent : event? d = some event := by rw [event?, hbody]; rfl
          simp [verdict, reading?, hevent, called, Incident.call?]

theorem called_of_deleting {since : Nat} (h : Course s handlers d (.deleting ending since) trail) :
    ending = verdict d ∧ called trail = (reading? d).toList := by
  cases h with
  | deleteCalled h =>
      obtain ⟨hending, hcalled⟩ := called_of_judged h
      rw [called_snoc, hcalled]
      exact ⟨hending, List.append_nil _⟩

/-- So has a task that is over, if handlers have brought nothing about but reports. -/
theorem called_of_done (h : Course s handlers d (.done ending) trail)
    (hreports : ∀ x ∈ trail, x.2.isVoice = true → ∃ call, x.2 ∈ report call) :
    ending = verdict d ∧ called trail = (reading? d).toList := by
  have hlast : ∀ {before : List (Nat × Incident)} {t : Nat} {i : Incident},
      trail = before ++ [(t, i)] → i.isVoice = true → ∃ call, i ∈ report call := by
    rintro before t i rfl
    exact hreports (t, i) (List.mem_append_right _ List.mem_cons_self)
  -- how a deletion ends is no call
  have hdeleted : ∀ {before : List (Nat × Incident)} {since t : Nat} {i : Incident},
      Course s handlers d (.deleting ending since) before → i.call? = none →
        ending = verdict d ∧ called (before ++ [(t, i)]) = (reading? d).toList := by
    intro before since t i h hnone
    obtain ⟨hending, hcalled⟩ := called_of_deleting h
    rw [called_snoc, hcalled, hnone]
    exact ⟨hending, List.append_nil _⟩
  cases h with
  | failed | panicked | timedOut =>
      obtain ⟨call, hcall⟩ := hlast rfl rfl
      simp [report] at hcall
  | deleted h => exact hdeleted h rfl
  | deleteFailed h => exact hdeleted h rfl
  | deleteTimedOut h => exact hdeleted h rfl

end Course

/-! ## What is reported of all deliveries -/

theorem count_reading (ds : List Delivery) (d : Delivery) (event : LifecycleEvent) :
    (ds.filterMap reading?).count (d, event) =
      if event? d = some event then ds.count d else 0 := by
  induction ds with
  | nil => exact (ite_self _).symm
  | cons first rest ih =>
      cases hfirst : event? first with
      | none =>
          have hskip : reading? first = none := by rw [reading?, hfirst]; rfl
          rw [List.filterMap_cons_none hskip, ih]
          by_cases hd : first = d
          · subst hd
            simp [hfirst]
          · rw [List.count_cons_of_ne hd]
      | some read =>
          have hread : reading? first = some (first, read) := by rw [reading?, hfirst]; rfl
          rw [List.filterMap_cons_some hread, List.count_cons, ih, List.count_cons]
          by_cases hd : first = d
          · subst hd
            by_cases hevent : read = event <;> simp [hfirst, hevent]
          · simp [hd]

/-- Every delivery is of one kind, or is no event. -/
theorem countP_kinds (ds : List Delivery) :
    (ds.countP fun d => (event? d).isSome) =
      (ds.countP fun d => (event? d).any (·.kind = .created)) +
        ds.countP fun d => (event? d).any (·.kind = .deleted) := by
  induction ds with
  | nil => rfl
  | cons d rest ih =>
      rw [List.countP_cons, List.countP_cons, List.countP_cons, ih]
      cases hevent : event? d with
      | none => simp
      | some event =>
          cases hkind : event.kind <;> simp [hkind] <;> omega

/-- The endings that deliveries deserve, counted. -/
theorem foldl_verdict (ds : List Delivery) (r : Report) :
    (ds.map verdict).foldl Report.count r =
      { r with
        completed := r.completed + ds.countP fun d => (event? d).isSome
        discarded := r.discarded + ds.countP fun d => (event? d).isNone } := by
  induction ds generalizing r with
  | nil => rfl
  | cons d rest ih =>
      rw [List.map_cons, List.foldl_cons, ih, List.countP_cons, List.countP_cons, verdict]
      cases event? d with
      | none => simp [Report.count]; omega
      | some event => simp [Report.count]; omega

section Over

variable {c₀ c : Consumer}

/-- Every task counted has ended as its delivery deserves, with the one report due to it. -/
theorem verdict_of_counted (htold : Told c) (hbooks : Books c₀ c)
    (hhandlers : c₀.handlers = handlers) {x : Delivery × Ending} (hx : x ∈ counts c.history) :
    x.2 = verdict x.1 ∧ called (trail c.history x.1) = (reading? x.1).toList := by
  have hcourse := hbooks.done x (List.mem_append_right _ hx)
  rw [hhandlers] at hcourse
  refine called_of_done hcourse ?_
  intro y hy hvoice
  have hmem : y.2 ∈ voices c.history :=
    List.mem_filter.2 ⟨List.mem_map_of_mem (mem_trail.1 hy).1, hvoice⟩
  rw [htold.voices, List.mem_flatMap] at hmem
  obtain ⟨call, -, hcall⟩ := hmem
  exact ⟨call, hcall⟩

variable (hcounted : ((counts c.history).map (·.1)).Perm (received c.history))
include hcounted

/-- Once every delivery has been counted, each that is an event has been reported once. -/
theorem called_perm (htold : Told c) (hbooks : Books c₀ c)
    (hhandlers : c₀.handlers = handlers) :
    (called c.history).Perm ((received c.history).filterMap reading?) := by
  rw [List.perm_iff_count]
  rintro ⟨d, event⟩
  have htrail : (called c.history).count (d, event) =
      (called (trail c.history d)).count (d, event) := by
    rw [called_trail]
    exact (List.count_filter (by simp)).symm
  rw [htrail, count_reading]
  by_cases hd : d ∈ received c.history
  · obtain ⟨x, hx, rfl⟩ := List.mem_map.1 (hcounted.symm.subset hd)
    have honce : (received c.history).count x.1 = 1 :=
      List.count_eq_one_of_mem hbooks.received_nodup.of_map hd
    rw [(verdict_of_counted htold hbooks hhandlers hx).2, honce, reading?]
    cases hevent : event? x.1 with
    | none => simp
    | some read => by_cases heq : read = event <;> simp [heq]
  · rw [hbooks.unheard d hd, List.count_eq_zero_of_not_mem hd, ite_self]
    rfl

theorem report_eq (htold : Told c) (hbooks : Books c₀ c) (hhandlers : c₀.handlers = handlers) :
    c.report =
      { completed := (received c.history).countP fun d => (event? d).isSome
        discarded := (received c.history).countP fun d => (event? d).isNone } := by
  have hverdicts : (counts c.history).map (·.2) =
      ((counts c.history).map (·.1)).map verdict := by
    rw [List.map_map]
    exact List.map_congr_left fun x hx =>
      (verdict_of_counted htold hbooks hhandlers hx).1
  rw [hbooks.report, hverdicts, foldl_verdict, hcounted.countP_eq, hcounted.countP_eq]
  simp

end Over

end Notifications

namespace Consumer

open Notifications (Told event? reading?)

variable {visibility : Nat} {c₀ c : Consumer}

/--
When a run with the handlers of notifications is over, whatever has been sent
to its queue and whenever, whatever has failed there and however little time
there was, no delivery has been left to redelivery.  The service has counted
the deliveries that are creations and those that are deletions.  Each of them
has been reported once, in the words for its kind and with its product; all
other deliveries have been discarded; and the report of the run counts both.
Whatever has been published has been sent, and a message that is an event and
is no longer with the queue has been reported as that event.
-/
theorem notifications_told (hfresh : c₀.Fresh) (hqueue : Queue.Reachable visibility c₀.queue)
    (hhandlers : c₀.handlers = Notifications.handlers) (hservice : c₀.service = {})
    (h : Runs c₀ c) (hstopped : c.phase = .stopped) :
    c.queue.deliveries = c₀.queue.deliveries + (received c.history).length ∧
      c.report.redelivered = 0 ∧ c.report.crashed = 0 ∧
      c.service.created =
        ((received c.history).countP fun d => (event? d).any (·.kind = .created)) ∧
      c.service.deleted =
        ((received c.history).countP fun d => (event? d).any (·.kind = .deleted)) ∧
      (called c.history).Perm ((received c.history).filterMap reading?) ∧
      (voices c.history = (called c.history).flatMap fun call =>
        [.handlerCalled call.1 call.2,
          .told ⟨.info, if call.2.kind = .created then "product created" else "product deleted",
            [("product_id", call.2.productId.text)]⟩,
          .handlerEnded call.1 call.2 .ok]) ∧
      c.report.completed = c.service.created + c.service.deleted ∧
      c.report.discarded = ((received c.history).countP fun d => (event? d).isNone) ∧
      ((published c.history).map LifecycleEvent.encode).Sublist (c.queue.sent.map (·.body)) ∧
      ∀ m ∈ c.queue.sent, ∀ event, m.body = event.encode → m ∉ c₀.queue.deleted →
        m ∉ c.queue.held → (∃ d, d.message = m ∧ (d, event) ∈ called c.history) ∧
          ⟨.info, if event.kind = .created then "product created" else "product deleted",
            [("product_id", event.productId.text)]⟩ ∈ c.log := by
  have horderly := h.orderly hfresh hqueue.sound
  have hbooks := horderly.books
  have htold : Told c := (Told.fresh hfresh hhandlers hservice).run h
  obtain ⟨htasks, hended⟩ := horderly.closed hstopped
  have hcounted : ((counts c.history).map (·.1)).Perm (received c.history) := by
    have hassigned := hbooks.assigned
    rwa [htasks, hended] at hassigned
  have hperm := Notifications.called_perm hcounted htold hbooks hhandlers
  have hreport := Notifications.report_eq hcounted htold hbooks hhandlers
  have hcount : ∀ kind, c.handlerCalls.countP (·.kind = kind) =
      (received c.history).countP fun d => (event? d).any (·.kind = kind) := by
    intro kind
    rw [handlerCalls_eq, List.countP_map, hperm.countP_eq, List.countP_filterMap]
    refine List.countP_congr fun d _ => ?_
    rw [reading?]
    cases event? d <;> simp
  have hcreated := (congrArg NotificationService.created htold.service).trans (hcount .created)
  have hdeleted := (congrArg NotificationService.deleted htold.service).trans (hcount .deleted)
  refine ⟨hbooks.deliveries, ?_, ?_, hcreated, hdeleted, hperm, htold.voices, ?_, ?_,
    htold.published, ?_⟩
  · rw [hreport]
  · rw [hreport]
  · rw [hreport, hcreated, hdeleted, ← Notifications.countP_kinds]
  · rw [hreport]
  · intro m hsent event hbody hbefore hgone
    have honce := count_held_removals hbooks hsent hbefore
    rw [List.count_eq_zero_of_not_mem hgone, Nat.zero_add] at honce
    have hremoved : m ∈ removals c.history := List.count_pos_iff.1 (by omega)
    obtain ⟨t, d, hdeleted, rfl⟩ := mem_removals.1 hremoved
    have hreceived : d ∈ received c.history := hbooks.mem_received_of_about hdeleted rfl
    have hread : reading? d = some (d, event) := by
      rw [reading?, event?, hbody, decode_encode]
      rfl
    have hcalled : (d, event) ∈ called c.history :=
      hperm.mem_iff.2 (List.mem_filterMap.2 ⟨d, hreceived, hread⟩)
    exact ⟨⟨d, rfl, hcalled⟩, htold.mem_log hcalled⟩

/-- A consumer with the handlers of notifications, for which all time is up at once. -/
private def notifying : Consumer where
  settings := { handlerTimeout := 0, deleteTimeout := 0 }
  handlers := Notifications.handlers
  queue := { visibility := 0 }

/-- A creation, a deletion and a message that is no event are delivered twice each. -/
theorem notifications_told_of_redelivery :
    ∃ c, Runs notifying c ∧ c.phase = .stopped ∧ c.report = { completed := 4, discarded := 2 } ∧
      c.service = { created := 2, deleted := 2 } ∧
      (∃ d, d.message.number = 3 ∧ (d, ⟨.deleted, .timed 0 0⟩) ∈ called c.history) ∧
      ⟨.info, "product deleted", [("product_id", (ProductId.timed 0 0).text)]⟩ ∈ c.log := by
  have hsent : Runs notifying _ := ((Runs.refl.move (.send [])).move
    (.publish ⟨.created, .timed 0 0⟩)).move (.publish ⟨.deleted, .timed 0 0⟩)
  have hstarted := (hsent.move .start).move (.turn .loop (by decide +kernel))
  have hreceived := hstarted.move (.turn .loop (by decide +kernel))
  have hagain := hreceived.move (.turn .loop (by decide +kernel))
  have hdraining := (hagain.move .stop).move (.turn .loop (by decide +kernel))
  -- the tokens of the first three deliveries are not valid any more
  have hdiscarded := (hdraining.move (.turn (.task 1) (by decide +kernel))).move
    (.turn (.task 4) (by decide +kernel))
  have hcreated := (hdiscarded.move (.turn (.task 2) (by decide +kernel))).move
    (.turn (.task 5) (by decide +kernel))
  have hdeleted := (hcreated.move (.turn (.task 3) (by decide +kernel))).move
    (.turn (.task 6) (by decide +kernel))
  have hstopped := hdeleted.move (.turn .loop (by decide +kernel))
  obtain ⟨c, hruns, hphase, hreport, hservice, m, hm, hnumber, hbody, hgone⟩ :
      ∃ c, Runs notifying c ∧ c.phase = .stopped ∧
        c.report = { completed := 4, discarded := 2 } ∧ c.service.created = 2 ∧
        ∃ m ∈ c.queue.sent, m.number = 3 ∧
          m.body = LifecycleEvent.encode ⟨.deleted, .timed 0 0⟩ ∧ m ∉ c.queue.held :=
    ⟨_, hstopped, by decide +kernel⟩
  obtain ⟨-, -, -, -, -, -, -, hcompleted, -, -, hcalls⟩ :=
    notifications_told ⟨rfl, rfl, rfl, rfl, rfl, rfl⟩ .empty rfl rfl hruns hphase
  have hrest : c.service.deleted = 2 := by
    rw [hreport, hservice] at hcompleted
    exact (Nat.add_left_cancel (n := 2) hcompleted).symm
  obtain ⟨⟨d, rfl, hcalled⟩, hlog⟩ := hcalls m hm _ hbody List.not_mem_nil hgone
  refine ⟨c, hruns, hphase, hreport, ?_, ⟨d, hnumber, hcalled⟩, hlog⟩
  exact congrArg₂ NotificationService.mk hservice hrest

end Consumer

end ProductCatalog
