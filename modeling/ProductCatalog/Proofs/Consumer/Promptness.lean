import ProductCatalog.Proofs.Consumer.Instants

/-!
# Handlers are called at once

A batch gives each of its deliveries a task with a turn, and on a patient
clock no time passes before all turns have been taken.  So a handler is called
at the instant of the receive, whatever other tasks have yet to do, and no
call can be told from the history in any other way than by its receive.

## Main definitions

* `ReceivedAt` — when a delivery has been received.
* `Immediate` — nothing that has been received has been left lying.

## Main results

* `PatientRuns.immediate` — nothing ever is.
* `PatientRuns.called_iff` — which handlers have been called;
  `PatientRuns.called_iff_of_idle`, `called_iff_of_over` — when this is known.
-/

namespace ProductCatalog.Consumer

open Queue (Delivery)

/-- A delivery has been received at an instant. -/
def ReceivedAt (history : List (Nat × Incident)) (t : Nat) (d : Delivery) : Prop :=
  ∃ batch, (t, .received batch) ∈ history ∧ d ∈ batch

/-- Somebody handles the event that a delivery brings. -/
def Handled (handlers : Registry Handler) (d : Delivery) (event : LifecycleEvent) : Prop :=
  decode d.message.body = .ok event ∧ (handlers.get event.kind).isSome

/-- A task that has not had its first turn has just been received, and a handler is called when
its delivery is received. -/
structure Immediate (c : Consumer) : Prop where
  ready : ∀ task ∈ c.tasks, task.state = .ready → ReceivedAt c.history c.now task.delivery
  called : ∀ t d event, (t, .handlerCalled d event) ∈ c.history →
    ReceivedAt c.history t d ∧ Handled c.handlers d event

variable {c₀ c c' : Consumer} {t : Nat} {d : Delivery} {event : LifecycleEvent}

/-! ## What has been received -/

theorem receivedAt_iff {history : List (Nat × Incident)} :
    ReceivedAt history t d ↔ ∃ x ∈ history, x.1 = t ∧ d ∈ x.2.batch := by
  constructor
  · rintro ⟨batch, hmem, hd⟩
    exact ⟨_, hmem, rfl, hd⟩
  · rintro ⟨⟨t, i⟩, hmem, rfl, hd⟩
    cases i with
    | received batch => exact ⟨batch, hmem, hd⟩
    | _ => exact absurd hd List.not_mem_nil

instance (history : List (Nat × Incident)) (t : Nat) (d : Delivery) :
    Decidable (ReceivedAt history t d) :=
  decidable_of_iff _ receivedAt_iff.symm

theorem ReceivedAt.append {history : List (Nat × Incident)} (h : ReceivedAt history t d)
    (news : List (Nat × Incident)) : ReceivedAt (history ++ news) t d := by
  obtain ⟨batch, hmem, hd⟩ := h
  exact ⟨batch, List.mem_append_left _ hmem, hd⟩

/-- What has been received is told by the receives. -/
theorem receivedAt_receives {history : List (Nat × Incident)} :
    ReceivedAt (receives history) t d ↔ ReceivedAt history t d := by
  have hmem : ∀ batch, (t, .received batch) ∈ receives history ↔ (t, .received batch) ∈ history :=
    fun batch => by simp [receives, Incident.ofReceive]
  simp only [ReceivedAt, hmem]

theorem ReceivedAt.mem_received {history : List (Nat × Incident)} (h : ReceivedAt history t d) :
    d ∈ received history := by
  obtain ⟨batch, hmem, hd⟩ := h
  exact List.mem_flatMap.2 ⟨_, hmem, hd⟩

/-- No delivery is received twice. -/
theorem ReceivedAt.unique {history : List (Nat × Incident)} {t' : Nat}
    (hnodup : (received history).Nodup) (h : ReceivedAt history t d)
    (h' : ReceivedAt history t' d) : t = t' := by
  obtain ⟨batch, hmem, hd⟩ := h
  obtain ⟨batch', hmem', hd'⟩ := h'
  have hsymm : Std.Symm (Function.onFun List.Disjoint fun x : Nat × Incident => x.2.batch) :=
    ⟨fun _ _ h _ hd hd' => h hd' hd⟩
  by_contra hne
  have hdisjoint := (List.nodup_flatMap.1 hnodup).2.forall hmem hmem'
    fun heq => hne (Prod.mk.inj heq).1
  exact hdisjoint hd hd'

/-! ## Calls -/

/-- A task calls the handler of its delivery's event, and nothing else, in its first turn. -/
theorem Does.called_of_mem {task : Task} {stint : Stint} (h : Does c task stint)
    (hmem : .handlerCalled d event ∈ stint.notes) :
    task.delivery = d ∧ task.state = .ready ∧ Handled c.handlers d event := by
  have hquiet : ∀ {notes : List Incident} {d' : Delivery},
      (∀ i ∈ notes, i.about? = some d' ∧ i.call? = none) → .handlerCalled d event ∉ notes := by
    intro notes d' hnotes hin
    cases (hnotes _ hin).2
  have htold : ∀ {entries : List LogEntry}, .handlerCalled d event ∉ entries.map Incident.told := by
    simp
  cases h with
  | undecodable _ _ h | unhandled _ _ _ h =>
      exact absurd (List.mem_of_ne_of_mem (by simp) hmem) (hquiet h.about)
  | called hstate hbody hsome =>
      rcases List.mem_cons.1 hmem with heq | hin
      · obtain ⟨rfl, rfl⟩ := Incident.handlerCalled.inj heq
        exact ⟨rfl, hstate, hbody, Option.isSome_of_eq_some hsome⟩
      · exact absurd hin htold
  | answered hstate hbody hsome _ _ h =>
      rcases List.mem_cons.1 hmem with heq | hin
      · obtain ⟨rfl, rfl⟩ := Incident.handlerCalled.inj heq
        exact ⟨rfl, hstate, hbody, Option.isSome_of_eq_some hsome⟩
      · exact absurd hin (List.mem_append.not.2 (not_or_intro htold (hquiet h.about)))
  | resumed _ h => exact absurd hmem (hquiet h.about)
  | removed _ h =>
      obtain rfl := List.mem_singleton.1 hmem
      cases h

namespace Immediate

theorem of_fresh (h : c.Fresh) : Immediate c where
  ready := by simp [h.tasks]
  called := by simp [h.history]

/-- More that the history tells, and tasks that have just been received, change nothing. -/
theorem extend (h : Immediate c) (news : List (Nat × Incident))
    (hhandlers : c'.handlers = c.handlers) (hhistory : c'.history = c.history ++ news)
    (hcalled : ∀ t d event, (t, .handlerCalled d event) ∈ news →
      ReceivedAt c.history t d ∧ Handled c.handlers d event)
    (hready : ∀ task ∈ c'.tasks, task.state = .ready →
      task ∈ c.tasks ∧ c'.now = c.now ∨ ReceivedAt c'.history c'.now task.delivery) :
    Immediate c' where
  ready task htask hstate := by
    rcases hready task htask hstate with ⟨hbefore, hnow⟩ | hreceived
    · rw [hnow, hhistory]
      exact (h.ready task hbefore hstate).append news
    · exact hreceived
  called t d event hmem := by
    rw [hhistory, List.mem_append] at hmem
    obtain ⟨hreceived, hhandled⟩ := hmem.elim (h.called t d event) (hcalled t d event)
    rw [hhistory, hhandlers]
    exact ⟨hreceived.append news, hhandled⟩

/-- What is about no task changes nothing. -/
theorem aside (h : Immediate c) (haside : Aside c [] c') : Immediate c' := by
  obtain ⟨news, hhistory, hnews⟩ := haside.history
  refine h.extend news haside.handlers hhistory (fun t d event hmem => ?_) fun task htask _ => ?_
  · cases hnews _ hmem
  · rw [haside.tasks, List.map_nil, List.append_nil] at htask
    exact .inl ⟨htask, haside.now⟩

/-- A batch is received when its tasks begin. -/
theorem loopTurn (h : Immediate c) (turns : List Party) :
    Immediate ({ c with turns := turns }.loopTurn) := by
  obtain ⟨queue, phase, turns', tasks, ended, report, alarm, alarms, news, hbeat, hnews, hturn⟩ :=
    loopTurn_beat { c with turns := turns }
  rw [hturn]
  refine h.extend news rfl rfl (fun t d event hmem => ?_) fun task htask _ => ?_
  · cases hnews _ hmem
  · cases hbeat with
    | takes _ max _ _ hmem =>
        rcases List.mem_append.1 htask with hrunning | hbegun
        · exact .inl ⟨hrunning, rfl⟩
        · obtain ⟨d, hd, rfl⟩ := List.mem_map.1 hbegun
          exact .inr ⟨_, List.mem_append_right _ hmem, hd⟩
    | _ => exact .inl ⟨htask, rfl⟩

/-- A task that calls a handler has just been received. -/
theorem stint (h : Immediate c) {task : Task} {stint : Stint} (htask : task ∈ c.tasks)
    (hdoes : Does c task stint) (turns : List Party) :
    Immediate ({ c with turns := turns }.perform task stint) := by
  have hcalled : ∀ t d event, (t, .handlerCalled d event) ∈ stint.notes.map (c.now, ·) →
      ReceivedAt c.history t d ∧ Handled c.handlers d event := by
    intro t d event hmem
    obtain ⟨i, hi, heq⟩ := List.mem_map.1 hmem
    obtain ⟨rfl, rfl⟩ := Prod.mk.inj heq
    obtain ⟨rfl, hstate, hhandled⟩ := hdoes.called_of_mem hi
    exact ⟨h.ready task htask hstate, hhandled⟩
  obtain ⟨notes, q, calls, service, deletions, upshot⟩ := stint
  cases upshot with
  | waits state =>
      rw [perform_waits]
      refine h.extend _ rfl rfl hcalled fun other hother hready => ?_
      obtain ⟨before, hbefore, rfl⟩ := List.mem_map.1 hother
      by_cases hnumber : before.delivery.number = task.delivery.number
      · -- the task itself waits for its alarm
        rw [if_pos hnumber] at hready
        have hleft := hdoes.left_lt rfl
        obtain rfl : state = .ready := hready
        exact absurd hleft (Nat.not_lt_of_le task.state.left_le)
      · rw [if_neg hnumber]
        exact .inl ⟨hbefore, rfl⟩
  | ended ending =>
      rw [perform_over]
      refine h.extend _ rfl rfl hcalled fun other hother _ => ?_
      exact .inl ⟨List.mem_of_mem_filter hother, rfl⟩

/-- On a patient clock no time passes before all tasks have had their first turns. -/
theorem ring (h : Immediate c) (hseated : Seated c) (instant : Nat)
    (hclock : (c.ring instant).now ≠ c.now → c.turns = []) : Immediate (c.ring instant) := by
  refine h.extend [] rfl (List.append_nil _).symm (by simp) fun task htask hstate => ?_
  refine .inl ⟨htask, ?_⟩
  by_contra hpasses
  have hturn := hseated.ready task htask hstate
  rw [hclock hpasses] at hturn
  exact absurd hturn List.not_mem_nil

theorem move (h : Immediate c) (hseated : Seated c) (hmove : Move c c')
    (hclock : c'.now ≠ c.now → c.turns = []) : Immediate c' := by
  cases hmove with
  | turn party hparty =>
      cases party with
      | loop => exact h.loopTurn _
      | task n =>
          obtain ⟨task, htask, rfl, stint, hdoes, hturn⟩ := hseated.taskTurn hparty
          rw [turnOf, hturn]
          exact h.stint htask hdoes _
  | pass instant => exact h.ring hseated instant hclock
  | start => exact h.aside (Aside.refl c).start
  | stop => exact h.aside (Aside.refl c).stop
  | send body => exact h.aside ((Aside.refl c).send body)
  | publish event => exact h.aside ((Aside.refl c).publish event)
  | fail faults => exact h.aside ((Aside.refl c).requeue _)
  | reorder leases => exact h.aside ((Aside.refl c).requeue _)

end Immediate

/-- Nothing that has been received is left lying. -/
theorem PatientRuns.immediate (h : PatientRuns c₀ c) (hfresh : c₀.Fresh)
    (hqueue : c₀.queue.Sound) : Immediate c := by
  induction h with
  | refl => exact .of_fresh hfresh
  | move hruns hmove hclock ih => exact ih.move (hruns.runs.seated hfresh hqueue) hmove hclock

/-! ## Which handlers have been called -/

/-- A task that has had its first turn has called the handler that there is. -/
theorem Course.called_of_handled {s : Settings} {handlers : Registry Handler} {leg : Leg}
    {trail : List (Nat × Incident)} (h : Course s handlers d leg trail) (hleg : leg ≠ .untouched)
    (hhandled : Handled handlers d event) : ∃ t, (t, .handlerCalled d event) ∈ trail := by
  obtain ⟨hevent, hsome⟩ := hhandled
  induction h with
  | untouched => exact absurd rfl hleg
  | undecodable hbody =>
      rw [hevent] at hbody
      cases hbody
  | unhandled hbody hnone =>
      obtain rfl := Except.ok.inj (hevent.symm.trans hbody)
      rw [hnone] at hsome
      cases hsome
  | @called t _ _ hbody =>
      obtain rfl := Except.ok.inj (hevent.symm.trans hbody)
      exact ⟨t, List.mem_singleton_self _⟩
  | succeeded _ _ _ ih | failed _ _ _ ih | panicked _ _ _ ih | timedOut _ _ _ ih
  | deleteCalled _ ih | deleted _ _ _ ih | deleteFailed _ _ _ ih | deleteTimedOut _ _ _ ih =>
      obtain ⟨t, hmem⟩ := ih nofun
      exact ⟨t, List.mem_append_left _ hmem⟩

/-- Whatever has been received waits for its first turn, or has had it. -/
theorem Orderly.called_of_received (h : Orderly c₀ c) (hd : d ∈ received c.history)
    (hhandled : Handled c₀.handlers d event) :
    (∃ task ∈ c.tasks, task.state = .ready ∧ task.delivery = d) ∨
      ∃ t, (t, .handlerCalled d event) ∈ c.history := by
  have htold : (∃ t, (t, .handlerCalled d event) ∈ trail c.history d) →
      ∃ t, (t, .handlerCalled d event) ∈ c.history :=
    fun ⟨t, hmem⟩ => ⟨t, (mem_trail.1 hmem).1⟩
  rcases List.mem_append.1 (h.books.assigned.symm.subset hd) with hrunning | hover
  · obtain ⟨task, htask, rfl⟩ := List.mem_map.1 hrunning
    obtain ⟨leg, hfits, hcourse⟩ := h.waiting task htask
    by_cases hstate : task.state = .ready
    · exact .inl ⟨task, htask, hstate, rfl⟩
    · refine .inr (htold (hcourse.called_of_handled ?_ hhandled))
      rintro rfl
      generalize task.state = state at hfits hstate
      cases hfits
      exact hstate rfl
  · obtain ⟨x, hx, rfl⟩ := List.mem_map.1 hover
    exact .inr (htold ((h.books.done x hx).called_of_handled nofun hhandled))

/-- The handlers called are those of what has been received, and each has been called at the
instant of the receive, unless the task waits for its first turn. -/
theorem PatientRuns.called_iff (hfresh : c₀.Fresh) (hqueue : c₀.queue.Sound)
    (h : PatientRuns c₀ c) (hbegun : ReceivedAt c.history t d →
      ∀ task ∈ c.tasks, task.delivery = d → task.state ≠ .ready) :
    (t, .handlerCalled d event) ∈ c.history ↔
      ReceivedAt c.history t d ∧ Handled c₀.handlers d event := by
  have horderly := h.runs.orderly hfresh hqueue
  have himmediate := h.immediate hfresh hqueue
  constructor
  · intro hmem
    obtain ⟨hreceived, hhandled⟩ := himmediate.called t d event hmem
    exact ⟨hreceived, horderly.books.handlers ▸ hhandled⟩
  · rintro ⟨hreceived, hhandled⟩
    rcases horderly.called_of_received hreceived.mem_received hhandled with
      ⟨task, htask, hstate, hdelivery⟩ | ⟨t', hmem⟩
    · exact absurd hstate (hbegun hreceived task htask hdelivery)
    · obtain rfl := hreceived.unique horderly.books.received_nodup.of_map
        (himmediate.called t' d event hmem).1
      exact hmem

/-- When nobody has a turn, every task has had one. -/
theorem PatientRuns.called_iff_of_idle (hfresh : c₀.Fresh) (hqueue : c₀.queue.Sound)
    (h : PatientRuns c₀ c) (hidle : c.turns = []) :
    (t, .handlerCalled d event) ∈ c.history ↔
      ReceivedAt c.history t d ∧ Handled c₀.handlers d event := by
  refine h.called_iff hfresh hqueue fun _ task htask _ hstate => ?_
  have hturn := (h.runs.seated hfresh hqueue).ready task htask hstate
  rw [hidle] at hturn
  exact absurd hturn List.not_mem_nil

/-- When an instant is over, every task that began at it has had its first turn. -/
theorem PatientRuns.called_iff_of_over (hfresh : c₀.Fresh) (hqueue : c₀.queue.Sound)
    (h : PatientRuns c₀ c) (hover : t ≠ c.now) :
    (t, .handlerCalled d event) ∈ c.history ↔
      ReceivedAt c.history t d ∧ Handled c₀.handlers d event := by
  refine h.called_iff hfresh hqueue fun hreceived task htask hdelivery hstate => ?_
  have hnow := (h.immediate hfresh hqueue).ready task htask hstate
  have hnodup := (h.runs.orderly hfresh hqueue).books.received_nodup.of_map
  exact hover (hreceived.unique hnodup (hdelivery ▸ hnow))

end ProductCatalog.Consumer
