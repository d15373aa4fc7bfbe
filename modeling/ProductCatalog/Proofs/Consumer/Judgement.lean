import ProductCatalog.Proofs.Consumer.Accounting
import ProductCatalog.Proofs.Consumer.Clock
import ProductCatalog.Proofs.Consumer.Seats
import ProductCatalog.Proofs.Consumer.Voices

/-!
# What becomes of a delivery

Whether the message of a delivery is deleted follows from its body, from the
handler registered for it and from what that handler makes of the call, and
from nothing else.  An *account* is the trail of a delivery together with
these grounds: what a running task has done so far, and all that has been
done for a task that is over.

## Main definitions

* `Registry.latest` — the thing registered last for a kind.
* `Settings.verdict` — how a task ends, given how its handler has reacted.
* `Finding`, `Disposal` — a trail up to the verdict, and after it.
* `Account`, `Judged` — of a running task, and of one that is over.

## Main results

* `Account.stint` — what a turn adds to an account.
* `Judging.move` — every move leaves all deliveries accounted for.
* `deliveries_judged` — so does every run.
-/

namespace ProductCatalog

open Queue (Delivery)

namespace Registry

variable {α : Type}

/-- The thing registered last for a kind. -/
def latest (registrations : List (EventKind × α)) (kind : EventKind) : Option α :=
  (registrations.filter fun registration => registration.1 = kind).getLast?.map (·.2)

end Registry

namespace Consumer

/-! ## Verdicts -/

/-- How the task of a delivery ends, given how its handler has reacted, if it has one. -/
def Settings.verdict (s : Settings) : Option Reaction → Ending
  | none => .discarded
  | some reaction =>
    match s.answer reaction with
    | some .ok => .completed
    | some (.failed _) | none => .redelivered
    | some .panicked => .crashed

/-- Whether a task that ends so deletes its message. -/
def Ending.removes : Ending → Bool
  | .completed | .discarded => true
  | .redelivered | .crashed => false

/-- How a handler's call ends, given how it reacts. -/
def Settings.close (s : Settings) (d : Delivery) (event : LifecycleEvent) (r : Reaction) :
    Incident :=
  match s.answer r with
  | some outcome => .handlerEnded d event outcome
  | none => .handlerTimedOut d event

/-- Whether an incident ends the deletion of a delivery's message. -/
def Incident.EndsDeletion (d : Delivery) : Incident → Prop
  | deleted other | deleteFailed other _ | deleteTimedOut other => other = d
  | _ => False

/--
A handler has been called for a delivery, as the `n`-th call for its kind, and
has told the log what it had to tell.
-/
def CalledAs (calls : EventKind → Nat) (history : List (Nat × Incident)) (t : Nat) (d : Delivery)
    (event : LifecycleEvent) (handler : Handler) (n : Nat) : Prop :=
  ∃ before after, history = before ++ ((t, .handlerCalled d event) ::
      (handler.report event).map fun entry => (t, .told entry)) ++ after ∧
    n = calls event.kind + (called before).countP (·.2.kind = event.kind)

section

variable (s : Settings) (handlers : EventKind → Option Handler) (calls : EventKind → Nat)
  (history : List (Nat × Incident)) (d : Delivery)

/--
The trail of a delivery up to the verdict at an instant, and how the handler
has reacted: if the body is an event that somebody handles, that handler has
been called once and has been waited for, and no handler otherwise.
-/
inductive Finding : Option Reaction → Nat → List (Nat × Incident) → Prop
  | undecodable {t error} (hbody : decode d.message.body = .error error) :
      Finding none t [(t, .undecodable d error)]
  | unhandled {t event} (hbody : decode d.message.body = .ok event)
      (hnone : handlers event.kind = none) :
      Finding none t [(t, .unhandled d event)]
  | handled {t event handler n reaction} (hbody : decode d.message.body = .ok event)
      (hsome : handlers event.kind = some handler)
      (hcall : CalledAs calls history t d event handler n)
      (hreaction : handler.reaction n event = reaction) :
      Finding (some reaction) (t + s.patience reaction)
        [(t, .handlerCalled d event), (t + s.patience reaction, s.close d event reaction)]

/--
The trail of a delivery after the verdict at an instant: one deletion, ended
within its time, or none.
-/
inductive Disposal (since : Nat) : Bool → List (Nat × Incident) → Prop
  | left : Disposal since false []
  | deleted {t i} (hsince : since ≤ t) (ht : t ≤ since + s.deleteTimeout)
      (hi : i.EndsDeletion d) : Disposal since true [(since, .deleteCalled d), (t, i)]

/-- The trail of a delivery whose task is over. -/
inductive Judged : Ending → List (Nat × Incident) → Prop
  | intro {reaction t found disposal} (hfound : Finding s handlers calls history d reaction t found)
      (hdisposal : Disposal s d t (s.verdict reaction).removes disposal) :
      Judged (s.verdict reaction) (found ++ disposal)

/-- The trail of a delivery whose task is in a state. -/
inductive Account : TaskState → List (Nat × Incident) → Prop
  | ready : Account .ready []
  | handling {t event handler n reaction} (hbody : decode d.message.body = .ok event)
      (hsome : handlers event.kind = some handler)
      (hcall : CalledAs calls history t d event handler n)
      (hreaction : handler.reaction n event = reaction) :
      Account (.handling event (s.answer reaction) (t + s.patience reaction))
        [(t, .handlerCalled d event)]
  | deleting {reaction t found inTime wakeAt}
      (hfound : Finding s handlers calls history d reaction t found)
      (hremoves : (s.verdict reaction).removes = true)
      (hlater : t ≤ wakeAt) (htime : wakeAt ≤ t + s.deleteTimeout) :
      Account (.deleting (s.verdict reaction) inTime wakeAt) (found ++ [(t, .deleteCalled d)])

/-- What a trail is after a turn. -/
def Upshot.Leaves : Upshot → List (Nat × Incident) → Prop
  | .waits state => Account s handlers calls history d state
  | .ended ending => Judged s handlers calls history d ending

end

/-! ## Growing histories -/

section

variable {s : Settings} {handlers : EventKind → Option Handler} {calls : EventKind → Nat}
  {history : List (Nat × Incident)} {d : Delivery} {trail' : List (Nat × Incident)}

theorem trail_append (history news : List (Nat × Incident)) (d : Delivery) :
    trail (history ++ news) d = trail history d ++ trail news d :=
  List.filter_append ..

theorem called_append (history news : List (Nat × Incident)) :
    called (history ++ news) = called history ++ called news :=
  List.filterMap_append ..

theorem CalledAs.append {t : Nat} {event : LifecycleEvent} {handler : Handler} {n : Nat}
    (h : CalledAs calls history t d event handler n) (news : List (Nat × Incident)) :
    CalledAs calls (history ++ news) t d event handler n := by
  obtain ⟨before, after, rfl, hn⟩ := h
  exact ⟨before, after ++ news, List.append_assoc .., hn⟩

theorem Finding.append {reaction : Option Reaction} {t : Nat}
    (h : Finding s handlers calls history d reaction t trail') (news : List (Nat × Incident)) :
    Finding s handlers calls (history ++ news) d reaction t trail' := by
  cases h with
  | undecodable hbody => exact .undecodable hbody
  | unhandled hbody hnone => exact .unhandled hbody hnone
  | handled hbody hsome hcall hreaction => exact .handled hbody hsome (hcall.append news) hreaction

theorem Judged.append {ending : Ending} (h : Judged s handlers calls history d ending trail')
    (news : List (Nat × Incident)) :
    Judged s handlers calls (history ++ news) d ending trail' := by
  cases h with
  | intro hfound hdisposal => exact .intro (hfound.append news) hdisposal

theorem Account.append {state : TaskState} (h : Account s handlers calls history d state trail')
    (news : List (Nat × Incident)) :
    Account s handlers calls (history ++ news) d state trail' := by
  cases h with
  | ready => exact .ready
  | handling hbody hsome hcall hreaction =>
      exact .handling hbody hsome (hcall.append news) hreaction
  | deleting hfound hremoves hlater htime =>
      exact .deleting (hfound.append news) hremoves hlater htime

end

/-! ## Turns of a task -/

section

variable {s : Settings} {now : Nat} {q q' : Queue} {d : Delivery} {ending : Ending}
  {event : LifecycleEvent} {outcome : Option Outcome} {notes : List Incident} {upshot : Upshot}
  {i : Incident}

theorem Removal.endsDeletion (h : Removal q d i q') : i.EndsDeletion d := by
  cases h <;> rfl

/-- What ends a deletion belongs to the task, and calls no handler. -/
theorem Incident.EndsDeletion.about (h : i.EndsDeletion d) :
    i.about? = some d ∧ i.call? = none := by
  cases i with
  | deleted | deleteFailed | deleteTimedOut =>
      obtain rfl : _ = d := h
      exact ⟨rfl, rfl⟩
  | _ => exact absurd h id

/-- All that a task notes after its verdict is about its own delivery. -/
theorem Parting.about (h : Parting s now q d ending notes q' upshot) :
    ∀ i ∈ notes, i.about? = some d ∧ i.call? = none := by
  cases h with
  | waits => simp [Incident.about?, Incident.call?]
  | ended hremoval =>
      have hlast := hremoval.endsDeletion.about
      simpa [Incident.about?, Incident.call?] using hlast

theorem Reply.about (h : Reply s now q d event outcome notes q' upshot) :
    ∀ i ∈ notes, i.about? = some d ∧ i.call? = none := by
  cases h with
  | succeeded hparting =>
      have hrest := hparting.about
      simpa [Incident.about?, Incident.call?] using hrest
  | failed | panicked | timedOut => simp [Incident.about?, Incident.call?]

/-- What is all about one delivery is its trail. -/
theorem trail_notes {notes : List Incident} (h : ∀ i ∈ notes, i.about? = some d ∧ i.call? = none)
    (now : Nat) : trail (notes.map (now, ·)) d = notes.map (now, ·) := by
  rw [trail, List.filter_eq_self]
  intro x hx
  obtain ⟨i, hi, rfl⟩ := List.mem_map.1 hx
  exact decide_eq_true (h i hi).1

theorem called_notes {notes : List Incident} (h : ∀ i ∈ notes, i.about? = some d ∧ i.call? = none)
    (now : Nat) : called (notes.map (now, ·)) = [] := by
  rw [called, List.filterMap_eq_nil_iff]
  intro x hx
  obtain ⟨i, hi, rfl⟩ := List.mem_map.1 hx
  exact (h i hi).2

theorem trail_cons_self (h : i.about? = some d) (now : Nat) (news : List (Nat × Incident)) :
    trail ((now, i) :: news) d = (now, i) :: trail news d :=
  List.filter_cons_of_pos (by simpa using h)

/-- What handlers tell the log is in nobody's trail. -/
theorem trail_told (entries : List LogEntry) (now : Nat) (d : Delivery) :
    trail ((entries.map Incident.told).map (now, ·)) d = [] := by
  simp [trail, Incident.about?]

theorem called_told (entries : List LogEntry) (now : Nat) :
    called ((entries.map Incident.told).map (now, ·)) = [] := by
  simp [called, Incident.call?]

end

section

variable {handlers : EventKind → Option Handler} {calls : EventKind → Nat}
  {history found : List (Nat × Incident)} {s : Settings} {now t : Nat} {q q' : Queue}
  {d : Delivery} {event : LifecycleEvent} {handler : Handler} {n : Nat} {reaction : Reaction}
  {notes : List Incident} {upshot : Upshot}

/-- A task whose verdict is to delete the message begins to, and waits or is over. -/
theorem Parting.leaves {reaction : Option Reaction}
    (hfound : Finding s handlers calls history d reaction now found)
    (hremoves : (s.verdict reaction).removes = true)
    (h : Parting s now q d (s.verdict reaction) notes q' upshot) :
    upshot.Leaves s handlers calls history d (found ++ notes.map (now, ·)) := by
  cases h with
  | waits hpos hwait =>
      exact .deleting hfound hremoves (Nat.le_add_right ..) (Nat.add_le_add_left hwait _)
  | ended hremoval =>
      refine .intro hfound ?_
      rw [hremoves]
      exact .deleted (Nat.le_refl _) (Nat.le_add_right ..) hremoval.endsDeletion

/-- A task whose delivery no handler is called for has nothing else to tell. -/
theorem Parting.leaves_discarded {i : Incident}
    (hfound : Finding s handlers calls history d none now [(now, i)])
    (h : Parting s now q d .discarded notes q' upshot) :
    upshot.Leaves s handlers calls history d ([] ++ (now, i) :: notes.map (now, ·)) := by
  have hleaves := h.leaves hfound rfl
  rwa [List.singleton_append] at hleaves

/-- What a handler has come to when it has been waited for makes the verdict. -/
theorem Reply.leaves (hbody : decode d.message.body = .ok event)
    (hsome : handlers event.kind = some handler)
    (hcall : CalledAs calls history t d event handler n)
    (hreaction : handler.reaction n event = reaction) (hnow : now = t + s.patience reaction)
    (h : Reply s now q d event (s.answer reaction) notes q' upshot) :
    upshot.Leaves s handlers calls history d
      ((t, .handlerCalled d event) :: notes.map (now, ·)) := by
  subst hnow
  have hfound : Finding s handlers calls history d (some reaction) _ _ :=
    .handled hbody hsome hcall hreaction
  -- all but a success leave the message alone
  have hleft : ∀ {ending}, s.verdict (some reaction) = ending → ending.removes = false →
      Judged s handlers calls history d ending [(t, .handlerCalled d event),
        (t + s.patience reaction, s.close d event reaction)] := by
    rintro ending rfl hstays
    have hdisposal : Disposal s d (t + s.patience reaction)
        (s.verdict (some reaction)).removes [] := hstays ▸ .left
    simpa only [List.append_nil] using Judged.intro hfound hdisposal
  generalize hanswer : s.answer reaction = answer at h
  cases h with
  | succeeded hparting =>
      have hverdict : s.verdict (some reaction) = .completed := by
        simp only [Settings.verdict, hanswer]
      rw [← hverdict] at hparting
      have hleaves := hparting.leaves hfound (by rw [hverdict]; rfl)
      simp only [Settings.close, hanswer] at hleaves
      exact hleaves
  | failed | panicked | timedOut =>
      have hjudged := hleft (by simp only [Settings.verdict, hanswer]; rfl) rfl
      simp only [Settings.close, hanswer] at hjudged
      exact hjudged

variable {c : Consumer} {task : Task} {stint : Stint}

/-- All that a stint notes is about the delivery of the task, or is told by a handler. -/
theorem Does.about (h : Does c task stint) :
    ∀ i ∈ stint.notes, i.about? = some task.delivery ∨ ∃ entry, i = .told entry := by
  cases h with
  | undecodable _ _ h | unhandled _ _ _ h =>
      intro i hi
      rcases List.mem_cons.1 hi with rfl | hi
      · exact .inl rfl
      · exact .inl (h.about i hi).1
  | called =>
      intro i hi
      rcases List.mem_cons.1 hi with rfl | hi
      · exact .inl rfl
      · obtain ⟨entry, -, rfl⟩ := List.mem_map.1 hi
        exact .inr ⟨entry, rfl⟩
  | answered _ _ _ _ _ h =>
      intro i hi
      rcases List.mem_cons.1 hi with rfl | hi
      · exact .inl rfl
      · rcases List.mem_append.1 hi with hi | hi
        · obtain ⟨entry, -, rfl⟩ := List.mem_map.1 hi
          exact .inr ⟨entry, rfl⟩
        · exact .inl (h.about i hi).1
  | resumed _ h => exact fun i hi => .inl (h.about i hi).1
  | removed _ h =>
      intro i hi
      rw [List.mem_singleton.1 hi]
      exact .inl h.endsDeletion.about.1

/-- A stint leaves the trails of all other deliveries, and counts no task. -/
theorem Does.others (h : Does c task stint) (now : Nat) :
    (∀ d, d ≠ task.delivery → trail (stint.notes.map (now, ·)) d = []) ∧
      counts (stint.notes.map (now, ·)) = [] := by
  constructor
  · intro d hd
    rw [trail, List.filter_eq_nil_iff]
    intro x hx
    obtain ⟨i, hi, rfl⟩ := List.mem_map.1 hx
    rcases h.about i hi with hown | ⟨entry, rfl⟩
    · simpa [hown] using Ne.symm hd
    · simp [Incident.about?]
  · rw [counts, List.filterMap_eq_nil_iff]
    intro x hx
    obtain ⟨i, hi, rfl⟩ := List.mem_map.1 hx
    rcases h.about i hi with hown | ⟨entry, rfl⟩
    · exact (Incident.quiet_of_about hown).2
    · rfl

/-- A deletion ends as the queue has it, for the token of the task's own delivery. -/
theorem Parting.removal {ending : Ending} {d' : Delivery} {i : Incident}
    (h : Parting s now q d ending notes q' upshot) (hi : i ∈ notes) (hends : i.EndsDeletion d') :
    d' = d ∧ Removal q d i q' := by
  cases h with
  | waits =>
      rw [List.mem_singleton.1 hi] at hends
      exact absurd hends id
  | ended hremoval =>
      rcases List.mem_cons.1 hi with rfl | hi
      · exact absurd hends id
      · obtain rfl := List.mem_singleton.1 hi
        have hown := hremoval.endsDeletion.about.1
        exact ⟨Option.some.inj (hends.about.1.symm.trans hown), hremoval⟩

theorem Reply.removal {outcome : Option Outcome} {d' : Delivery} {i : Incident}
    (h : Reply s now q d event outcome notes q' upshot) (hi : i ∈ notes)
    (hends : i.EndsDeletion d') : d' = d ∧ Removal q d i q' := by
  cases h with
  | succeeded hparting =>
      rcases List.mem_cons.1 hi with rfl | hi
      · exact absurd hends id
      · exact hparting.removal hi hends
  | failed | panicked | timedOut =>
      rw [List.mem_singleton.1 hi] at hends
      exact absurd hends id

theorem Does.removal {d' : Delivery} {i : Incident} (h : Does c task stint) (hi : i ∈ stint.notes)
    (hends : i.EndsDeletion d') :
    d' = task.delivery ∧ Removal c.queue task.delivery i stint.queue := by
  have htold : ∀ entry, i ≠ .told entry := by
    rintro entry rfl
    exact hends
  cases h with
  | undecodable _ _ h | unhandled _ _ _ h =>
      rcases List.mem_cons.1 hi with rfl | hi
      · exact absurd hends id
      · exact h.removal hi hends
  | called =>
      rcases List.mem_cons.1 hi with rfl | hi
      · exact absurd hends id
      · obtain ⟨entry, -, heq⟩ := List.mem_map.1 hi
        exact absurd heq.symm (htold entry)
  | answered _ _ _ _ _ h =>
      rcases List.mem_cons.1 hi with rfl | hi
      · exact absurd hends id
      · rcases List.mem_append.1 hi with hi | hi
        · obtain ⟨entry, -, heq⟩ := List.mem_map.1 hi
          exact absurd heq.symm (htold entry)
        · exact h.removal hi hends
  | resumed _ h => exact h.removal hi hends
  | removed _ h =>
      rw [List.mem_singleton.1 hi] at hends ⊢
      exact ⟨Option.some.inj (hends.about.1.symm.trans h.endsDeletion.about.1), h⟩

/-- Calls are counted as the history tells of them. -/
theorem Does.calls_eq (h : Does c task stint) (kind : EventKind) :
    stint.calls kind = c.calls kind +
      (Consumer.called (stint.notes.map (c.now, ·))).countP (·.2.kind = kind) := by
  have hcalled : ∀ (event : LifecycleEvent) (news : List (Nat × Incident)),
      Consumer.called news = [] → countCall c.calls event.kind kind = c.calls kind +
        (Consumer.called ((c.now, .handlerCalled task.delivery event) :: news)).countP
          (·.2.kind = kind) := by
    intro event news hnews
    have hcons : Consumer.called ((c.now, .handlerCalled task.delivery event) :: news) =
        (task.delivery, event) :: Consumer.called news := rfl
    rw [hcons, hnews, countCall]
    by_cases hkind : event.kind = kind
    · simp [hkind]
    · simp [hkind, Ne.symm hkind]
  cases h with
  | undecodable _ _ h | unhandled _ _ _ h =>
      rw [called_notes (List.forall_mem_cons.2 ⟨⟨rfl, rfl⟩, h.about⟩)]
      rfl
  | called => exact hcalled _ _ (called_told ..)
  | answered _ _ _ _ _ h =>
      refine hcalled _ _ ?_
      rw [List.map_append, called_append, called_told, called_notes h.about]
      rfl
  | resumed _ h =>
      rw [called_notes h.about]
      rfl
  | removed _ h =>
      rw [called_notes (by simpa using h.endsDeletion.about)]
      rfl

/-- A turn at the right time keeps the account. -/
theorem Account.turn (hcalls : ∀ kind, c.calls kind = calls kind +
      (Consumer.called c.history).countP (·.2.kind = kind))
    (htime : ∀ wakeAt, task.wakeAt? = some wakeAt → wakeAt = c.now)
    (h : Account c.settings c.handlers.get calls c.history task.delivery task.state
      (trail c.history task.delivery))
    (hdoes : Does c task stint) :
    stint.upshot.Leaves c.settings c.handlers.get calls
      (c.history ++ stint.notes.map (c.now, ·)) task.delivery
      (trail (c.history ++ stint.notes.map (c.now, ·)) task.delivery) := by
  rw [trail_append]
  generalize htrail : trail c.history task.delivery = before at h ⊢
  -- the call that a task makes is the next one for its kind
  have hcall : ∀ (event : LifecycleEvent) (handler : Handler) (after : List (Nat × Incident)),
      CalledAs calls (c.history ++ ((c.now, .handlerCalled task.delivery event) ::
        ((handler.report event).map Incident.told).map (c.now, ·)) ++ after) c.now task.delivery
          event handler (c.calls event.kind) := by
    intro event handler after
    refine ⟨c.history, after, ?_, hcalls event.kind⟩
    rw [List.map_map]
    rfl
  cases hdoes with
  | undecodable hstate hbody hparting =>
      rw [hstate] at h
      cases h
      rw [List.map_cons, trail_cons_self rfl, trail_notes hparting.about]
      exact hparting.leaves_discarded (.undecodable hbody)
  | unhandled hstate hbody hnone hparting =>
      rw [hstate] at h
      cases h
      rw [List.map_cons, trail_cons_self rfl, trail_notes hparting.about]
      exact hparting.leaves_discarded (.unhandled hbody hnone)
  | @called event handler _ hstate hbody hsome hreaction =>
      rw [hstate] at h
      cases h
      rw [List.map_cons, trail_cons_self rfl, trail_told]
      have hnow := hcall event handler []
      rw [List.append_nil] at hnow
      exact .handling hbody hsome hnow hreaction
  | answered hstate hbody hsome hreaction hzero hreply =>
      rw [hstate] at h
      cases h
      rw [List.map_cons, List.map_append, trail_cons_self rfl, trail_append, trail_told,
        trail_notes hreply.about]
      refine hreply.leaves hbody hsome ?_ hreaction (by omega)
      rw [← List.cons_append, ← List.append_assoc]
      exact hcall _ _ _
  | resumed hstate hreply =>
      rw [hstate] at h
      have hnow := htime _ (by rw [Task.wakeAt?, hstate])
      cases h with
      | handling hbody hsome hcalled hreaction =>
          rw [trail_notes hreply.about]
          exact hreply.leaves hbody hsome (hcalled.append _) hreaction hnow.symm
  | removed hstate hremoval =>
      rw [hstate] at h
      have hnow := htime _ (by rw [Task.wakeAt?, hstate])
      subst hnow
      cases h with
      | deleting hfound hremoves hlater hwake =>
          have hends := hremoval.endsDeletion
          rw [trail_notes (List.forall_mem_singleton.2 hends.about), List.append_assoc]
          refine .intro (hfound.append _) ?_
          rw [hremoves]
          exact .deleted hlater hwake hends

end

/-! ## Runs -/

/-- Calls are counted, and every delivery is accounted for. -/
structure Judging (c₀ c : Consumer) : Prop where
  calls : ∀ kind, c.calls kind = c₀.calls kind + (called c.history).countP (·.2.kind = kind)
  running : ∀ task ∈ c.tasks, Account c₀.settings c₀.handlers.get c₀.calls c.history task.delivery
    task.state (trail c.history task.delivery)
  ended : ∀ x ∈ c.ended ++ counts c.history, Judged c₀.settings c₀.handlers.get c₀.calls c.history
    x.1 x.2 (trail c.history x.1)

theorem Fresh.judging {c : Consumer} (h : c.Fresh) : Judging c c where
  calls kind := by
    rw [h.history]
    rfl
  running := by simp [h.tasks]
  ended := by simp [h.ended, h.history, counts]

namespace Judging

variable {c₀ c c' : Consumer} {task : Task}

/-- What is aside from the running tasks adds to no trail. -/
theorem aside {batch : List Delivery} (h : Judging c₀ c) (hafter : Orderly c₀ c')
    (haside : Aside c batch c') : Judging c₀ c' := by
  obtain ⟨news, hhistory, hnews⟩ := haside.history
  have htrail : ∀ d, trail c'.history d = trail c.history d := by
    intro d
    have hnone : trail news d = [] := by
      rw [trail, List.filter_eq_nil_iff]
      exact fun x hx => by simp [hnews x hx]
    rw [hhistory, trail_append, hnone, List.append_nil]
  have hcalled : called c'.history = called c.history := by
    have hnone : called news = [] := by
      rw [called, List.filterMap_eq_nil_iff]
      intro x hx
      have habout := hnews x hx
      generalize x.2 = i at habout
      cases i with
      | handlerCalled d event => cases habout
      | _ => rfl
    rw [hhistory, called_append, hnone, List.append_nil]
  refine ⟨?_, ?_, ?_⟩
  · intro kind
    rw [haside.calls, hcalled]
    exact h.calls kind
  · intro task htask
    rw [haside.tasks] at htask
    rcases List.mem_append.1 htask with hrunning | hbegun
    · rw [htrail, hhistory]
      exact (h.running task hrunning).append news
    · -- nothing has been told yet of a task that begins
      obtain ⟨d, hd, rfl⟩ := List.mem_map.1 hbegun
      obtain ⟨leg, hfits, hcourse⟩ := hafter.waiting _ (haside.tasks ▸ htask)
      cases hfits
      generalize hempty : trail c'.history _ = before at hcourse
      cases hcourse
      exact .ready
  · intro x hx
    rw [htrail, hhistory]
    exact (h.ended x (haside.ended hx)).append news

/-- A turn adds to the account of one task. -/
theorem stint {stint : Stint} (h : Judging c₀ c) (hbooks : Books c₀ c) (htask : task ∈ c.tasks)
    (htime : ∀ wakeAt, task.wakeAt? = some wakeAt → wakeAt = c.now) (hdoes : Does c task stint)
    (turns : List Party) : Judging c₀ ({ c with turns := turns }.perform task stint) := by
  have hleaves := Account.turn h.calls htime
    (hbooks.settings ▸ hbooks.handlers ▸ h.running task htask) hdoes
  rw [hbooks.settings, hbooks.handlers] at hleaves
  obtain ⟨hothers, hcounts⟩ := hdoes.others c.now
  have hcalls : ∀ kind, stint.calls kind = c₀.calls kind +
      (called (c.history ++ stint.notes.map (c.now, ·))).countP (·.2.kind = kind) := by
    intro kind
    rw [hdoes.calls_eq, h.calls, called_append, List.countP_append, Nat.add_assoc]
  have hrunning : ∀ other ∈ c.tasks, other.delivery.number ≠ task.delivery.number →
      Account c₀.settings c₀.handlers.get c₀.calls (c.history ++ stint.notes.map (c.now, ·))
        other.delivery other.state
        (trail (c.history ++ stint.notes.map (c.now, ·)) other.delivery) := by
    intro other hother hne
    rw [trail_append, hothers _ fun heq => hne (congrArg _ heq), List.append_nil]
    exact (h.running other hother).append _
  have hover : ∀ x ∈ c.ended ++ counts (c.history ++ stint.notes.map (c.now, ·)),
      Judged c₀.settings c₀.handlers.get c₀.calls (c.history ++ stint.notes.map (c.now, ·)) x.1 x.2
        (trail (c.history ++ stint.notes.map (c.now, ·)) x.1) := by
    intro x hx
    rw [counts, List.filterMap_append, ← counts, ← counts, hcounts, List.append_nil] at hx
    rw [trail_append, hothers _ (hbooks.ne_of_running htask hx).symm, List.append_nil]
    exact (h.ended x hx).append _
  obtain ⟨notes, q, calls, service, deletions, upshot⟩ := stint
  cases upshot with
  | waits state =>
      rw [perform_waits]
      refine ⟨hcalls, ?_, hover⟩
      intro other hother
      obtain ⟨before, hbefore, rfl⟩ := List.mem_map.1 hother
      by_cases hnumber : before.delivery.number = task.delivery.number
      · obtain rfl := List.inj_on_of_nodup_map hbooks.tasks_nodup hbefore htask hnumber
        rw [if_pos rfl]
        exact hleaves
      · rw [if_neg hnumber]
        exact hrunning before hbefore hnumber
  | ended ending =>
      rw [perform_over]
      refine ⟨hcalls, ?_, ?_⟩
      · intro other hother
        obtain ⟨hother, hne⟩ := List.mem_filter.1 hother
        exact hrunning other hother (bne_iff_ne.1 hne)
      · intro x hx
        rcases List.mem_append.1 hx with hx | hx
        · rcases List.mem_append.1 hx with hx | hx
          · exact hover x (List.mem_append_left _ hx)
          · rw [List.mem_singleton.1 hx]
            exact hleaves
        · exact hover x (List.mem_append_right _ hx)

theorem move (h : Judging c₀ c) (hbefore : Orderly c₀ c) (hafter : Orderly c₀ c')
    (hseated : Seated c) (hmove : Move c c') : Judging c₀ c' := by
  cases hseated.moved hmove with
  | aside haside => exact h.aside hafter haside
  | stint htask hturn hdoes =>
      exact h.stint hbefore.books htask (hseated.on_time hbefore htask hturn) hdoes _
  | pass instant => exact { h with }

end Judging

variable {visibility : Nat} {c₀ c : Consumer}

/-- Every run leaves all deliveries accounted for. -/
theorem Runs.judging (h : Runs c₀ c) (hfresh : c₀.Fresh) (hqueue : c₀.queue.Sound) :
    Judging c₀ c := by
  induction h with
  | refl => exact hfresh.judging
  | move hruns hmove ih =>
      exact ih.move (hruns.orderly hfresh hqueue) ((hruns.move hmove).orderly hfresh hqueue)
        (hruns.seated hfresh hqueue) hmove

/-- What has been told of a run stays told. -/
theorem Seated.history_extends {c' : Consumer} (h : Seated c) (hmove : Move c c') :
    c.history <+: c'.history := by
  cases h.moved hmove with
  | aside haside =>
      obtain ⟨news, hhistory, -⟩ := haside.history
      exact ⟨news, hhistory.symm⟩
  | @stint task stint =>
      obtain ⟨alarms, tasks, ended, turns, hrecord⟩ := perform_record ({ c with
        turns := c.turns.erase (.task task.delivery.number) }) task stint
      rw [hrecord]
      exact List.prefix_append ..
  | pass instant => exact List.prefix_refl _

theorem Runs.history_extends {c' : Consumer} (h : Runs c₀ c) (hfresh : c₀.Fresh)
    (hqueue : c₀.queue.Sound) (h' : Runs c c') : c.history <+: c'.history := by
  induction h' with
  | refl => exact List.prefix_refl _
  | move hruns hmove ih =>
      exact ih.trans (((h.trans hruns).seated hfresh hqueue).history_extends hmove)

end Consumer

end ProductCatalog
