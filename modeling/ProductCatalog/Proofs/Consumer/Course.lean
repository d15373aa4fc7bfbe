import ProductCatalog.Consumer.Run

/-!
# What happens to one delivery

The history of a consumer tells of many deliveries at once.  The *trail* of
a delivery is what it tells of one, and a *course* says what a trail can be
from the delivery to the end of its task: which verdict leads to a deletion,
and in what time.

Besides the trails, the history tells which deliveries have been received,
how tasks have been counted, and which messages have been removed.

## Main results

* `trail_note`, `received_note`, `counts_note`, `removals_note` — one incident
  more.
* `Course.deleted_cases` — what has led to a successful deletion.
* `Course.done_cases` — how a task ends without one.
-/

namespace ProductCatalog

open Queue (Delivery Message)

namespace Consumer

/-! ## Reading the history -/

namespace Incident

/-- The delivery whose task an incident belongs to. -/
def about? : Incident → Option Delivery
  | undecodable d _ | unhandled d _ | handlerCalled d _ | handlerEnded d _ _
  | handlerTimedOut d _ | deleteCalled d | deleted d | deleteFailed d _ | deleteTimedOut d => some d
  | published _ | began | receiveBegan | received _ | receiveFailed _ | told _ | counted ..
  | draining _ | stopped _ => none

/-- The deliveries that an incident brings. -/
def batch : Incident → List Delivery
  | received batch => batch
  | _ => []

/-- The end of a task that an incident counts. -/
def count? : Incident → Option (Delivery × Ending)
  | counted d ending => some (d, ending)
  | _ => none

/-- The message that an incident removes from the queue. -/
def removal? : Incident → Option Message
  | deleted d => some d.message
  | _ => none

/-- An incident that belongs to a task neither brings deliveries nor counts a task. -/
theorem quiet_of_about {i : Incident} {d : Delivery} (h : i.about? = some d) :
    i.batch = [] ∧ i.count? = none := by
  cases i with
  | received batch => cases h
  | counted d ending => cases h
  | _ => exact ⟨rfl, rfl⟩

/-- Only an incident that belongs to a task removes a message. -/
theorem removal_of_about {i : Incident} (h : i.about? = none) : i.removal? = none := by
  cases i with
  | deleted d => cases h
  | _ => rfl

end Incident

/-- What a history tells of the task of a delivery. -/
def trail (history : List (Nat × Incident)) (d : Delivery) : List (Nat × Incident) :=
  history.filter fun x => x.2.about? = some d

/-- The deliveries received, in order. -/
def received (history : List (Nat × Incident)) : List Delivery :=
  history.flatMap fun x => x.2.batch

/-- The tasks counted, in order, with their endings. -/
def counts (history : List (Nat × Incident)) : List (Delivery × Ending) :=
  history.filterMap fun x => x.2.count?

/-- The messages removed from the queue, in order. -/
def removals (history : List (Nat × Incident)) : List Message :=
  history.filterMap fun x => x.2.removal?

section Note

variable (c : Consumer) (i : Incident)

@[simp] theorem history_note : (c.note i).history = c.history ++ [(c.now, i)] := rfl

@[simp] theorem settings_note : (c.note i).settings = c.settings := rfl

theorem trail_note (d : Delivery) :
    trail (c.note i).history d =
      trail c.history d ++ if i.about? = some d then [(c.now, i)] else [] := by
  rw [history_note, trail, trail, List.filter_append]
  by_cases h : i.about? = some d <;> simp [h]

/-- An incident shows in the trail of its own delivery at most. -/
theorem trail_note_of_ne {d : Delivery} (h : i.about? ≠ some d) :
    trail (c.note i).history d = trail c.history d := by
  rw [trail_note, if_neg h, List.append_nil]

theorem received_note : received (c.note i).history = received c.history ++ i.batch := by
  simp [received]

theorem counts_note : counts (c.note i).history = counts c.history ++ i.count?.toList := by
  rw [history_note, counts, counts, List.filterMap_append]
  cases h : i.count? <;> simp [h]

theorem removals_note :
    removals (c.note i).history = removals c.history ++ i.removal?.toList := by
  rw [history_note, removals, removals, List.filterMap_append]
  cases h : i.removal? <;> simp [h]

end Note

/-! ## The course of a task -/

/-- How far the task of a delivery has come. -/
inductive Leg
  /-- Nothing has been done. -/
  | untouched
  /-- The handler has been called at an instant. -/
  | handling (event : LifecycleEvent) (since : Nat)
  /-- The message has been dealt with for good, and is to be deleted. -/
  | judged (ending : Ending)
  /-- The deletion has begun at an instant. -/
  | deleting (ending : Ending) (since : Nat)
  /-- The task is over. -/
  | done (ending : Ending)

/-- What the trail of a delivery can be when its task has come so far. -/
inductive Course (s : Settings) (handlers : Registry Handler) (d : Delivery) :
    Leg → List (Nat × Incident) → Prop
  | untouched : Course s handlers d .untouched []
  | undecodable {t error} (hbody : decode d.message.body = .error error) :
      Course s handlers d (.judged .discarded) [(t, .undecodable d error)]
  | unhandled {t event} (hbody : decode d.message.body = .ok event)
      (hnone : handlers.get event.kind = none) :
      Course s handlers d (.judged .discarded) [(t, .unhandled d event)]
  | called {t event handler} (hbody : decode d.message.body = .ok event)
      (hsome : handlers.get event.kind = some handler) :
      Course s handlers d (.handling event t) [(t, .handlerCalled d event)]
  | succeeded {trail event since t} (h : Course s handlers d (.handling event since) trail)
      (hsince : since ≤ t) (ht : t ≤ since + s.handlerTimeout) :
      Course s handlers d (.judged .completed) (trail ++ [(t, .handlerEnded d event .ok)])
  | failed {trail event since t reason} (h : Course s handlers d (.handling event since) trail)
      (hsince : since ≤ t) (ht : t ≤ since + s.handlerTimeout) :
      Course s handlers d (.done .redelivered)
        (trail ++ [(t, .handlerEnded d event (.failed reason))])
  | panicked {trail event since t} (h : Course s handlers d (.handling event since) trail)
      (hsince : since ≤ t) (ht : t ≤ since + s.handlerTimeout) :
      Course s handlers d (.done .crashed) (trail ++ [(t, .handlerEnded d event .panicked)])
  | timedOut {trail event since t} (h : Course s handlers d (.handling event since) trail)
      (hsince : since ≤ t) (ht : t ≤ since + s.handlerTimeout) :
      Course s handlers d (.done .redelivered) (trail ++ [(t, .handlerTimedOut d event)])
  | deleteCalled {trail ending t} (h : Course s handlers d (.judged ending) trail) :
      Course s handlers d (.deleting ending t) (trail ++ [(t, .deleteCalled d)])
  | deleted {trail ending since t} (h : Course s handlers d (.deleting ending since) trail)
      (hsince : since ≤ t) (ht : t ≤ since + s.deleteTimeout) :
      Course s handlers d (.done ending) (trail ++ [(t, .deleted d)])
  | deleteFailed {trail ending since t error}
      (h : Course s handlers d (.deleting ending since) trail)
      (hsince : since ≤ t) (ht : t ≤ since + s.deleteTimeout) :
      Course s handlers d (.done ending) (trail ++ [(t, .deleteFailed d error)])
  | deleteTimedOut {trail ending since t} (h : Course s handlers d (.deleting ending since) trail)
      (hsince : since ≤ t) (ht : t ≤ since + s.deleteTimeout) :
      Course s handlers d (.done ending) (trail ++ [(t, .deleteTimedOut d)])

/--
What entitles a task to delete its message: the body is no event, nobody
handles the event, or its handler has succeeded in time.
-/
inductive Warrant (s : Settings) (handlers : Registry Handler) (d : Delivery) :
    List (Nat × Incident) → Prop
  | undecodable {t error} (hbody : decode d.message.body = .error error) :
      Warrant s handlers d [(t, .undecodable d error)]
  | unhandled {t event} (hbody : decode d.message.body = .ok event)
      (hnone : handlers.get event.kind = none) :
      Warrant s handlers d [(t, .unhandled d event)]
  | handled {t₁ t₂ event handler} (hbody : decode d.message.body = .ok event)
      (hsome : handlers.get event.kind = some handler)
      (hle : t₁ ≤ t₂) (htime : t₂ ≤ t₁ + s.handlerTimeout) :
      Warrant s handlers d [(t₁, .handlerCalled d event), (t₂, .handlerEnded d event .ok)]

namespace Course

variable {s : Settings} {handlers : Registry Handler} {d : Delivery} {leg : Leg}
  {trail : List (Nat × Incident)} {ending : Ending}

/-- A task that is to delete its message is entitled to. -/
theorem warrant (h : Course s handlers d (.judged ending) trail) : Warrant s handlers d trail := by
  cases h with
  | undecodable hbody => exact .undecodable hbody
  | unhandled hbody hnone => exact .unhandled hbody hnone
  | succeeded h hsince ht =>
      cases h with
      | called hbody hsome => exact .handled hbody hsome hsince ht

/-- No message is removed before its task is over. -/
theorem not_deleted (h : Course s handlers d leg trail) (hleg : ∀ ending, leg ≠ .done ending)
    {t : Nat} : (t, .deleted d) ∉ trail := by
  induction h with
  | untouched => simp
  | undecodable | unhandled | called => simp
  | succeeded _ _ _ ih =>
      have hbefore := ih (by simp)
      simpa using hbefore
  | deleteCalled _ ih =>
      have hbefore := ih (by simp)
      simpa using hbefore
  | failed | panicked | timedOut | deleted | deleteFailed | deleteTimedOut =>
      exact absurd rfl (hleg _)

/-- A message is removed at the end of a trail that begins with a warrant. -/
theorem deleted_cases (h : Course s handlers d leg trail) {t : Nat}
    (hmem : (t, .deleted d) ∈ trail) :
    ∃ grounds since, Warrant s handlers d grounds ∧
      trail = grounds ++ [(since, .deleteCalled d), (t, .deleted d)] := by
  have hover : ∃ ending, leg = .done ending := by
    cases leg with
    | done ending => exact ⟨ending, rfl⟩
    | _ => exact absurd hmem (h.not_deleted (by simp))
  obtain ⟨ending, rfl⟩ := hover
  cases h with
  | failed h => exact absurd hmem (by simpa using h.not_deleted (by simp))
  | panicked h => exact absurd hmem (by simpa using h.not_deleted (by simp))
  | timedOut h => exact absurd hmem (by simpa using h.not_deleted (by simp))
  | deleteFailed h => exact absurd hmem (by simpa using h.not_deleted (by simp))
  | deleteTimedOut h => exact absurd hmem (by simpa using h.not_deleted (by simp))
  | @deleted _ _ since _ h =>
      rcases List.mem_append.1 hmem with hbefore | hlast
      · exact absurd hbefore (h.not_deleted (by simp))
      · obtain ⟨rfl, -⟩ := Prod.mk.inj (List.mem_singleton.1 hlast)
        cases h with
        | deleteCalled h =>
            refine ⟨_, since, h.warrant, ?_⟩
            rw [List.append_assoc]
            rfl

/-- A task that is over has left its message to redelivery or has tried to delete it. -/
theorem done_cases (h : Course s handlers d (.done ending) trail) :
    ending = .redelivered ∨ ending = .crashed ∨ (∃ t, (t, .deleted d) ∈ trail) ∨
      (∃ t error, (t, .deleteFailed d error) ∈ trail) ∨ ∃ t, (t, .deleteTimedOut d) ∈ trail := by
  cases h with
  | failed | timedOut => exact .inl rfl
  | panicked => exact .inr (.inl rfl)
  | deleted => exact .inr (.inr (.inl ⟨_, List.mem_append_right _ List.mem_cons_self⟩))
  | deleteFailed =>
      exact .inr (.inr (.inr (.inl ⟨_, _, List.mem_append_right _ List.mem_cons_self⟩)))
  | deleteTimedOut =>
      exact .inr (.inr (.inr (.inr ⟨_, List.mem_append_right _ List.mem_cons_self⟩)))

end Course

end Consumer

end ProductCatalog
