import Mathlib.Data.List.Chain
import ProductCatalog.Proofs.Consumer.Draining

/-!
# The receives of a consumer

Deliveries come to a consumer through the receives of its loop.  Their
beginnings and ends are read off its history; tasks and what is done from
outside leave them alone.

Nothing of the loop depends on the queue being what answers.  Its receives may
go to any *transport*, which answers as it likes and when it likes.

## Main definitions

* `receives` — how the receives of a history begin and end.
* `Follows`, `Regular` — what may come next after a beginning or an end.
* `loopTurnWith`, `Served`, `Serves` — turns, moves and runs with any
  transport.

## Main results

* `taskTurn_record` — what a task leaves alone.
* `loopTurn_eq_with`, `PatientRuns.serves` — the queue is a transport.
-/

namespace ProductCatalog.Consumer

open Queue (Delivery)

/-! ## The receives of a history -/

/-- Whether an incident begins or ends a receive. -/
def Incident.ofReceive : Incident → Bool
  | receiveBegan | received _ | receiveFailed _ => true
  | published _ | began | undecodable .. | unhandled .. | handlerCalled .. | told _
  | handlerEnded .. | handlerTimedOut .. | deleteCalled _ | deleted _ | deleteFailed ..
  | deleteTimedOut _ | counted .. | draining _ | stopped _ => false

/-- How receives have begun and ended, in order. -/
def receives (history : List (Nat × Incident)) : List (Nat × Incident) :=
  history.filter (·.2.ofReceive)

/-- What may come next after a receive has begun or ended. -/
inductive Follows (s : Settings) : Nat × Incident → Nat × Incident → Prop
  | received {t t' batch} (h : t ≤ t') : Follows s (t, .receiveBegan) (t', .received batch)
  | failed {t t' error} (h : t ≤ t') : Follows s (t, .receiveBegan) (t', .receiveFailed error)
  /-- After a batch the next receive begins at once. -/
  | atOnce {t batch} : Follows s (t, .received batch) (t, .receiveBegan)
  /-- After a failure there is the pause between them. -/
  | paused {t error} : Follows s (t, .receiveFailed error) (t + s.retryDelay, .receiveBegan)

/-- What the receives of a history are like. -/
structure Regular (s : Settings) (history : List (Nat × Incident)) : Prop where
  chain : (receives history).IsChain (Follows s)
  first : ∀ x ∈ (receives history).head?, x.2 = .receiveBegan

theorem receives_append (history news : List (Nat × Incident)) :
    receives (history ++ news) = receives history ++ receives news :=
  List.filter_append ..

/-- What has nothing to do with the receives leaves them as they are. -/
theorem receives_quiet {history news : List (Nat × Incident)}
    (h : ∀ x ∈ news, x.2.ofReceive = false) : receives (history ++ news) = receives history := by
  have hnone : receives news = [] :=
    List.filter_eq_nil_iff.2 fun x hx => by simp [h x hx]
  rw [receives_append, hnone, List.append_nil]

theorem receives_note_quiet (c : Consumer) {i : Incident} (h : i.ofReceive = false) :
    receives (c.note i).history = receives c.history :=
  receives_quiet fun x hx => by rwa [List.mem_singleton.1 hx]

theorem receives_note (c : Consumer) {i : Incident} (h : i.ofReceive = true) :
    receives (c.note i).history = receives c.history ++ [(c.now, i)] := by
  have hself : receives [(c.now, i)] = [(c.now, i)] :=
    List.filter_eq_self.2 fun x hx => by rwa [List.mem_singleton.1 hx]
  rw [history_note, receives_append, hself]

namespace Regular

variable {s : Settings} {history history' : List (Nat × Incident)} {x y : Nat × Incident}

theorem congr (h : Regular s history) (heq : receives history' = receives history) :
    Regular s history' :=
  ⟨heq ▸ h.chain, heq ▸ h.first⟩

/-- One more that may come next. -/
theorem snoc (h : Regular s history) (hlast : (receives history).getLast? = some x)
    (hfollows : Follows s x y) (heq : receives history' = receives history ++ [y]) :
    Regular s history' := by
  obtain ⟨init, hinit⟩ := List.getLast?_eq_some_iff.1 hlast
  constructor
  · rw [heq]
    refine h.chain.append (List.isChain_singleton y) fun x' hx' y' hy' => ?_
    rw [Option.mem_def, hlast, Option.some.injEq] at hx'
    rw [Option.mem_def, List.head?_cons, Option.some.injEq] at hy'
    rwa [← hx', ← hy']
  · have hfirst := h.first
    rw [heq]
    rw [hinit] at hfirst ⊢
    cases init <;> exact hfirst

/-- The first receive begins. -/
theorem begin (hnone : receives history = []) {t : Nat}
    (heq : receives history' = receives history ++ [(t, .receiveBegan)]) :
    Regular s history' := by
  rw [hnone, List.nil_append] at heq
  constructor
  · rw [heq]
    exact List.isChain_singleton _
  · rw [heq]
    intro x hx
    obtain rfl := Option.some.inj hx
    rfl

end Regular

/-! ## What the parties do to the receives -/

/-- What a task leaves of the queue. -/
theorem Does.queue_cases {c : Consumer} {task : Task} {stint : Stint} (h : Does c task stint) :
    stint.queue = c.queue ∨ ∃ token, stint.queue = (c.queue.delete token).1 := by
  have hremoval : ∀ {q d i q'}, Removal q d i q' → q' = q ∨ ∃ token, q' = (q.delete token).1 := by
    intro _ d _ _ hremoval
    cases hremoval with
    | deleted h | refused h => exact .inr ⟨d.token, by rw [h]⟩
    | givenUp => exact .inl rfl
  have hparting : ∀ {s now q d ending notes q' upshot},
      Parting s now q d ending notes q' upshot → q' = q ∨ ∃ token, q' = (q.delete token).1 := by
    intro _ _ _ _ _ _ _ _ hparting
    cases hparting with
    | waits => exact .inl rfl
    | ended h => exact hremoval h
  have hreply : ∀ {s now q d event outcome notes q' upshot},
      Reply s now q d event outcome notes q' upshot →
        q' = q ∨ ∃ token, q' = (q.delete token).1 := by
    intro _ _ _ _ _ _ _ _ _ hreply
    cases hreply with
    | succeeded h => exact hparting h
    | failed | panicked | timedOut => exact .inl rfl
  cases h with
  | undecodable _ _ h | unhandled _ _ _ h => exact hparting h
  | called => exact .inl rfl
  | answered _ _ _ _ _ h | resumed _ h => exact hreply h
  | removed _ h => exact hremoval h

section

variable (c : Consumer)

/-- A task has nothing to do with the receives.  It may delete a message, and gives the loop a
turn at most if that waits for the tasks. -/
theorem taskTurn_record (n : Nat) :
    ∃ q calls service deletions news alarms tasks ended turns,
      (q = c.queue ∨ ∃ token, q = (c.queue.delete token).1) ∧
      (∀ x ∈ news, x.1 = c.now ∧ x.2.ofReceive = false) ∧
      (turns = c.turns ∨ c.phase = .draining ∧ .loop ∉ c.turns ∧ turns = c.turns ++ [.loop]) ∧
      c.taskTurn n = { c with
        queue := q
        calls := calls
        service := service
        deletions := deletions
        history := c.history ++ news
        alarms := alarms
        tasks := tasks
        ended := ended
        turns := turns } := by
  cases hfind : c.tasks.find? (·.delivery.number = n) with
  | none =>
      refine ⟨c.queue, c.calls, c.service, c.deletions, [], c.alarms, c.tasks, c.ended, c.turns,
        .inl rfl, by simp, .inl rfl, ?_⟩
      simp only [taskTurn, hfind, List.append_nil]
  | some task =>
      obtain ⟨stint, hdoes, hturn⟩ := taskTurn_stint hfind
      have hquiet : ∀ x ∈ stint.notes.map (c.now, ·), x.1 = c.now ∧ x.2.ofReceive = false := by
        intro x hx
        obtain ⟨i, hi, rfl⟩ := List.mem_map.1 hx
        refine ⟨rfl, ?_⟩
        rcases hdoes.about i hi with habout | ⟨entry, rfl⟩
        · cases i <;> first | rfl | cases habout
        · rfl
      have hqueue := hdoes.queue_cases
      rw [hturn]
      obtain ⟨notes, q, calls, service, deletions, upshot⟩ := stint
      cases upshot with
      | waits state =>
          exact ⟨q, calls, service, deletions, _, _, _, c.ended, c.turns, hqueue, hquiet, .inl rfl,
            perform_waits ..⟩
      | ended ending =>
          refine ⟨q, calls, service, deletions, _, c.alarms, _, _, _, hqueue, hquiet, ?_,
            perform_over ..⟩
          split
          · next hwakes => exact .inr ⟨hwakes.1, hwakes.2, rfl⟩
          · exact .inl rfl

/-- Counting tasks has nothing to do with the receives either. -/
theorem receives_countEnded : receives c.countEnded.history = receives c.history := by
  rw [countEnded_record]
  refine receives_quiet fun x hx => ?_
  obtain ⟨y, -, rfl⟩ := List.mem_map.1 hx
  rfl

/-- Only a loop that waits in a receive is told about a message. -/
theorem announce_record :
    ∃ turns, (turns = c.turns ∨ (∃ poll, c.phase = .receiving poll) ∧ .loop ∉ c.turns ∧
        turns = c.turns ++ [.loop]) ∧ c.announce = { c with turns := turns } := by
  unfold announce
  split
  · next poll hphase =>
      rw [wakeLoop_record]
      refine ⟨_, ?_, rfl⟩
      split
      · exact .inl rfl
      · next hloop => exact .inr ⟨⟨poll, hphase⟩, hloop, rfl⟩
  · exact ⟨c.turns, .inl rfl, rfl⟩

end

/-! ## Any transport -/

/-- A turn of the loop whose receives have another answer than the queue's. -/
def loopTurnWith (c : Consumer) (answer : Queue × Queue.PollState) : Consumer :=
  match c.phase with
  | .polling =>
    if c.countEnded.stopAsked then c.countEnded.drain
    else (c.countEnded.note .receiveBegan).settle answer
  | .receiving _ => if c.stopAsked then c.drain else c.settle answer
  | .idle | .starting | .pausing _ | .draining | .stopped => c.loopTurn

/-- The queue's is one of the answers. -/
theorem loopTurn_eq_with (c : Consumer) : ∃ answer, c.loopTurn = c.loopTurnWith answer := by
  unfold loopTurnWith
  cases hphase : c.phase with
  | polling =>
      refine ⟨c.countEnded.queue.receive c.countEnded.now c.countEnded.settings.maxMessages
        c.countEnded.settings.waitTime, ?_⟩
      rw [loopTurn, hphase]
      rfl
  | receiving poll =>
      refine ⟨c.queue.poll c.now poll.max poll.deadline, ?_⟩
      rw [loopTurn, hphase]
  | _ => exact ⟨(c.queue, .finished (.ok [])), rfl⟩

/-- One move with any transport. -/
inductive Served (c : Consumer) : Consumer → Prop
  | move {c'} (h : Move c c') : Served c c'
  /-- The transport has an answer for a receive that waits. -/
  | answered : Served c c.announce
  /-- The loop takes its turn, and its receive is answered or goes on waiting. -/
  | turn (answer : Queue × Queue.PollState) (h : .loop ∈ c.turns) :
      Served c ({ c with turns := c.turns.erase .loop }.loopTurnWith answer)

/-- What a consumer can come to with any transport, on a patient clock. -/
inductive Serves (c₀ : Consumer) : Consumer → Prop
  | refl : Serves c₀ c₀
  | move {c c'} (h : Serves c₀ c) (hmove : Served c c') (hclock : c'.now ≠ c.now → c.turns = []) :
      Serves c₀ c'

/-- Among the transports is the queue. -/
theorem PatientRuns.serves {c₀ c : Consumer} (h : PatientRuns c₀ c) : Serves c₀ c := by
  induction h with
  | refl => exact .refl
  | move _ hmove hclock ih => exact ih.move (.move hmove) hclock

/-- A look that has been answered adds to the history. -/
theorem settle_history (c : Consumer) (answer : Queue × Queue.PollState) :
    ∃ news, (c.settle answer).history = c.history ++ news := by
  obtain ⟨q, state⟩ := answer
  cases state with
  | waiting poll => exact ⟨[], (List.append_nil _).symm⟩
  | finished result =>
      cases result with
      | ok batch => exact ⟨[(c.now, .received batch)], rfl⟩
      | error error =>
          refine ⟨[(c.now, .receiveFailed error)], ?_⟩
          simp only [settle]
          split <;> rfl

end ProductCatalog.Consumer
