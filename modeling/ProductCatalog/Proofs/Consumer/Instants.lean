import ProductCatalog.Proofs.Consumer.Receives
import ProductCatalog.Proofs.Queue.Polling

/-!
# Every instant comes to an end

The loop of a consumer goes from receive to receive without letting anybody
else have a turn for as long as there is something to receive, and a task may
have several turns.  But if receives wait and leases last, all this uses
itself up: every turn at an instant leaves less to do at it, and whoever waits
then waits for a later one.

## Main definitions

* `Beat` — all that a turn of the loop can come to.
* `Alert` — nobody has missed an alarm.
* `business` — what is left to do at an instant.

## Main results

* `loopTurn_beat` — every turn of the loop is a beat.
* `business_turn_lt` — every turn leaves less to do.
* `Runs.alert` — no run misses an alarm.
* `PatientRuns.exists_settled` — a run gets to where nothing is left to do
  before an instant.
-/

namespace ProductCatalog.Consumer

open Queue (Delivery)

/-! ## The turns of the loop -/

/-- What a turn of the loop makes of queue, phase, turns, tasks and history. -/
inductive Beat (c : Consumer) :
    Queue → Phase → List Party → List Task → List (Nat × Incident) → Prop
  | rests {news} (h : c.phase = .idle ∨ c.phase = .stopped) :
      Beat c c.queue c.phase c.turns c.tasks news
  | begins {news} (h : c.phase = .starting) :
      Beat c c.queue .polling (.loop :: c.turns) c.tasks news
  | drains {news} (hasked : c.stopAsked = true) (h : c.phase = .polling ∨ c.phase.sleeps = true) :
      Beat c c.queue .draining (.loop :: c.turns) c.tasks news
  | closes {phase news} (h : c.phase = .draining)
      (hphase : phase = .draining ∨ phase = .stopped) : Beat c c.queue phase c.turns c.tasks news
  | resumes {wakeAt news} (hopen : c.stopAsked = false) (h : c.phase = .pausing wakeAt) :
      Beat c c.queue .polling (.loop :: c.turns) c.tasks news
  /-- A receive fails, and the next one comes at once. -/
  | retries {n news} (receives : Nat) (hopen : c.stopAsked = false) (h : c.phase = .polling)
      (hfaults : c.queue.faults.receives = n + 1) :
      Beat c { c.queue with receives := receives, faults := { c.queue.faults with receives := n } }
        .polling (.loop :: c.turns) c.tasks news
  /-- A receive fails, and the next one comes after the pause. -/
  | pauses {n wakeAt news} (receives : Nat) (hopen : c.stopAsked = false) (h : c.phase = .polling)
      (hfaults : c.queue.faults.receives = n + 1) (hlater : c.now < wakeAt) :
      Beat c { c.queue with receives := receives, faults := { c.queue.faults with receives := n } }
        (.pausing wakeAt) c.turns c.tasks news
  /-- A receive ends with a batch.  It has found something, or this is not its first look. -/
  | takes {news} (receives max : Nat) (hopen : c.stopAsked = false)
      (h : c.phase = .polling ∧ ((c.queue.look c.now max).2 ≠ [] ∨ c.settings.waitTime = 0) ∨
        ∃ poll, c.phase = .receiving poll)
      (hnews : (c.now, .received (c.queue.look c.now max).2) ∈ news) :
      Beat c { (c.queue.look c.now max).1 with receives := receives } .polling
        (.loop :: (c.turns ++ (c.queue.look c.now max).2.map fun d => .task d.number))
        (c.tasks ++ (c.queue.look c.now max).2.map fun d => ⟨d, .ready, 0⟩) news
  /-- A receive has found nothing and waits. -/
  | waits {poll news} (receives max : Nat) (hopen : c.stopAsked = false)
      (h : c.phase = .polling ∨ ∃ poll, c.phase = .receiving poll) (hlater : c.now < poll.lookAt) :
      Beat c { (c.queue.look c.now max).1 with receives := receives } (.receiving poll) c.turns
        c.tasks news

/-- A look of a receive ends it, or is followed by a later one. -/
theorem settle_poll (c : Consumer) (q : Queue) (max deadline : Nat) :
    ((q.look c.now max).2 ≠ [] ∨ deadline ≤ c.now) ∧
        c.settle (q.poll c.now max deadline) =
          { c with queue := (q.look c.now max).1 }.dispatch (q.look c.now max).2 ∨
      ∃ poll, c.now < poll.lookAt ∧
        c.settle (q.poll c.now max deadline) =
          { c with queue := (q.look c.now max).1 }.await (.receiving poll) := by
  rcases q.poll_cases c.now max deadline with hpoll | ⟨-, poll, hpoll⟩
  · exact .inl ⟨(Queue.poll_finished (congrArg Prod.snd hpoll)).2, by rw [hpoll]; rfl⟩
  · obtain ⟨-, -, -, -, hlater, -⟩ := Queue.poll_waiting (congrArg Prod.snd hpoll)
    exact .inr ⟨poll, hlater, by rw [hpoll]; rfl⟩

section

variable {c : Consumer}

/-- A receive begins, after the ended tasks have been counted, and fails, takes a batch or
waits. -/
private theorem beginReceive_beat (hopen : c.stopAsked = false) (hphase : c.phase = .polling)
    (report : Report) {counted : List (Nat × Incident)}
    (hcounted : ∀ x ∈ counted, x.2.about? = none) :
    ∃ queue phase turns tasks alarm alarms news,
      Beat c queue phase turns tasks news ∧ (∀ x ∈ news, x.2.about? = none) ∧
      { c with
        ended := []
        report := report
        history := c.history ++ counted : Consumer }.beginReceive = { c with
          queue := queue
          phase := phase
          turns := turns
          tasks := tasks
          ended := []
          report := report
          alarm := alarm
          alarms := alarms
          history := c.history ++ news } := by
  have hquiet : ∀ i : Incident, i.about? = none →
      ∀ x ∈ counted ++ [(c.now, .receiveBegan)] ++ [(c.now, i)], x.2.about? = none := by
    intro i hi x hx
    simp only [List.mem_append, List.mem_singleton] at hx
    obtain (hx | rfl) | rfl := hx
    · exact hcounted x hx
    · rfl
    · exact hi
  cases hfaults : c.queue.faults.receives with
  | zero =>
      rw [beginReceive, Queue.receive_eq_poll hfaults]
      rcases settle_poll ({ c with
        ended := []
        report := report
        history := c.history ++ counted : Consumer }.note .receiveBegan)
          { c.queue with receives := c.queue.receives + 1 } c.settings.maxMessages
            (c.now + c.settings.waitTime) with ⟨hfound, hsettle⟩ | ⟨poll, hlater, hsettle⟩
      · have hstarts : (c.queue.look c.now c.settings.maxMessages).2 ≠ [] ∨
            c.settings.waitTime = 0 := by
          refine hfound.imp id fun hlate => ?_
          have hnow : c.now + c.settings.waitTime ≤ c.now := hlate
          omega
        refine ⟨_, _, _, _, c.alarm, c.alarms, _, .takes (c.queue.receives + 1) _ hopen
          (.inl ⟨hphase, hstarts⟩) List.mem_concat_self, hquiet _ rfl, hsettle.trans ?_⟩
        simp only [← List.append_assoc]
        rfl
      · refine ⟨_, _, _, _, c.alarms, c.alarms + 1, counted ++ [(c.now, .receiveBegan)],
          .waits (c.queue.receives + 1) c.settings.maxMessages hopen (.inl hphase) hlater,
          fun x hx => hquiet .began rfl x (List.mem_append_left _ hx), hsettle.trans ?_⟩
        simp only [← List.append_assoc]
        rfl
  | succ n =>
      rw [beginReceive, Queue.receive_of_fault hfaults, settle]
      generalize TransportError.receive "injected receive failure" = error
      simp only
      split
      · refine ⟨_, _, _, _, c.alarm, c.alarms, _,
          .retries (c.queue.receives + 1) hopen hphase hfaults,
          hquiet (.receiveFailed error) rfl, ?_⟩
        simp only [← List.append_assoc]
        rfl
      · next hdelay =>
          have hlater : c.now < c.now + c.settings.retryDelay :=
            Nat.lt_add_of_pos_right (Nat.pos_of_ne_zero hdelay)
          refine ⟨_, _, _, _, c.alarms, c.alarms + 1, _,
            .pauses (c.queue.receives + 1) hopen hphase hfaults hlater,
            hquiet (.receiveFailed error) rfl, ?_⟩
          simp only [← List.append_assoc]
          rfl

variable (c)

/-- Every turn of the loop is a beat, and it tells nothing of any delivery's task. -/
theorem loopTurn_beat :
    ∃ queue phase turns tasks ended report alarm alarms news,
      Beat c queue phase turns tasks news ∧ (∀ x ∈ news, x.2.about? = none) ∧
      c.loopTurn = { c with
        queue := queue
        phase := phase
        turns := turns
        tasks := tasks
        ended := ended
        report := report
        alarm := alarm
        alarms := alarms
        history := c.history ++ news } := by
  -- what has ended is counted before some of the turns
  let counted := c.ended.map fun x => (c.now, Incident.counted x.1 x.2)
  let report := (c.ended.map (·.2)).foldl Report.count c.report
  have hrecord : c.countEnded = { c with
      ended := []
      report := report
      history := c.history ++ counted } := c.countEnded_record
  have hcounted : ∀ x ∈ counted, x.2.about? = none := by
    intro x hx
    obtain ⟨y, -, rfl⟩ := List.mem_map.1 hx
    rfl
  have hquiet : ∀ i : Incident, i.about? = none →
      ∀ x ∈ counted ++ [(c.now, i)], x.2.about? = none := by
    intro i hi x hx
    rcases List.mem_append.1 hx with hx | hx
    · exact hcounted x hx
    · rwa [List.mem_singleton.1 hx]
  have hone : ∀ i : Incident, i.about? = none → ∀ x ∈ [(c.now, i)], x.2.about? = none :=
    fun i hi x hx => hquiet i hi x (List.mem_append_right _ hx)
  have hnone : ∀ x ∈ ([] : List (Nat × Incident)), x.2.about? = none := by simp
  unfold loopTurn
  cases hphase : c.phase with
  | idle =>
      refine ⟨c.queue, c.phase, c.turns, c.tasks, c.ended, c.report, c.alarm, c.alarms, [],
        .rests (.inl hphase), hnone, ?_⟩
      simp only [List.append_nil]
  | stopped =>
      refine ⟨c.queue, c.phase, c.turns, c.tasks, c.ended, c.report, c.alarm, c.alarms, [],
        .rests (.inr hphase), hnone, ?_⟩
      simp only [List.append_nil]
  | starting =>
      exact ⟨_, _, _, _, c.ended, c.report, c.alarm, c.alarms, _, .begins hphase, hone _ rfl, rfl⟩
  | polling =>
      simp only [hrecord]
      split
      · next hasked =>
          refine ⟨_, _, _, _, [], report, c.alarm, c.alarms, _, .drains hasked (.inl hphase),
            hquiet (.draining (c.tasks.length + 0)) rfl, ?_⟩
          rw [← List.append_assoc]
          rfl
      · next hopen =>
          obtain ⟨queue, phase, turns, tasks, alarm, alarms, news, hbeat, hnews, hbegins⟩ :=
            beginReceive_beat (Bool.eq_false_iff.2 hopen) hphase report hcounted
          exact ⟨queue, phase, turns, tasks, [], report, alarm, alarms, news, hbeat, hnews, hbegins⟩
  | receiving poll =>
      simp only
      split
      · next hasked =>
          exact ⟨_, _, _, _, c.ended, c.report, c.alarm, c.alarms, _,
            .drains hasked (.inr (by rw [hphase]; rfl)), hone _ rfl, rfl⟩
      · next hopen =>
          have hopen := Bool.eq_false_iff.2 hopen
          rcases c.settle_poll c.queue poll.max poll.deadline with ⟨-, hsettle⟩ |
            ⟨poll', hlater, hsettle⟩
          · exact ⟨_, _, _, _, c.ended, c.report, c.alarm, c.alarms, _,
              .takes c.queue.receives _ hopen (.inr ⟨poll, hphase⟩) (List.mem_singleton_self _),
              hone _ rfl, hsettle⟩
          · refine ⟨_, _, _, _, c.ended, c.report, c.alarms, c.alarms + 1, [],
              .waits c.queue.receives poll.max hopen (.inr ⟨poll, hphase⟩) hlater, hnone, ?_⟩
            rw [hsettle]
            simp only [List.append_nil]
            rfl
  | pausing wakeAt =>
      simp only
      split
      · next hasked =>
          exact ⟨_, _, _, _, c.ended, c.report, c.alarm, c.alarms, _,
            .drains hasked (.inr (by rw [hphase]; rfl)), hone _ rfl, rfl⟩
      · next hopen =>
          refine ⟨_, _, _, _, c.ended, c.report, c.alarm, c.alarms, [],
            .resumes (Bool.eq_false_iff.2 hopen) hphase, hnone, ?_⟩
          simp only [goOn, List.append_nil]
  | draining =>
      simp only [hrecord]
      split
      · refine ⟨_, _, _, _, [], report, c.alarm, c.alarms, _, .closes hphase (.inr rfl),
          hquiet (.stopped report) rfl, ?_⟩
        rw [← List.append_assoc]
        rfl
      · exact ⟨_, _, _, _, [], report, c.alarm, c.alarms, _, .closes hphase (.inl rfl),
          hcounted, by rw [hphase]⟩

end

/-! ## Alarms -/

/-- When a loop goes on that waits for time to pass. -/
def Phase.wakeAt? : Phase → Option Nat
  | .receiving poll => some poll.lookAt
  | .pausing wakeAt => some wakeAt
  | .idle | .starting | .polling | .draining | .stopped => none

/-- Nobody has missed an alarm: it is yet to ring, or has given a turn. -/
structure Alert (c : Consumer) : Prop where
  loop : ∀ wakeAt, c.phase.wakeAt? = some wakeAt → c.now < wakeAt ∨ .loop ∈ c.turns
  tasks : ∀ task ∈ c.tasks, ∀ wakeAt, task.wakeAt? = some wakeAt →
    c.now < wakeAt ∨ .task task.delivery.number ∈ c.turns

theorem mem_pending_loop {c : Consumer} {instant place : Nat} :
    (instant, place, .loop) ∈ c.pending ↔ c.phase.wakeAt? = some instant ∧ c.alarm = place := by
  have htasks : (instant, place, .loop) ∉ c.tasks.filterMap fun task =>
      task.wakeAt?.map fun wakeAt => (wakeAt, task.alarm, Party.task task.delivery.number) := by
    simp
  rw [pending, List.mem_append, or_iff_left htasks, loopAlarm]
  cases c.phase <;> simp [Phase.wakeAt?, eq_comm]

/-- A task that waits has set its alarm for later. -/
theorem Does.wakes_later {c : Consumer} {task other : Task} {stint : Stint} {wakeAt : Nat}
    (h : Does c task stint) (hwaits : stint.upshot = .waits other.state)
    (hwake : other.wakeAt? = some wakeAt) : c.now < wakeAt := by
  rw [Task.wakeAt?] at hwake
  have hparting : ∀ {ending notes q' upshot},
      Parting c.settings c.now c.queue task.delivery ending notes q' upshot →
        upshot = .waits other.state → c.now < wakeAt := by
    intro _ _ _ _ hparting hupshot
    cases hparting with
    | waits hpos =>
        rw [← Upshot.waits.inj hupshot] at hwake
        obtain rfl := Option.some.inj hwake
        omega
    | ended => cases hupshot
  have hreply : ∀ {event outcome notes q' upshot},
      Reply c.settings c.now c.queue task.delivery event outcome notes q' upshot →
        upshot = .waits other.state → c.now < wakeAt := by
    intro _ _ _ _ _ hreply hupshot
    cases hreply with
    | succeeded h => exact hparting h hupshot
    | failed | panicked | timedOut => cases hupshot
  cases h with
  | undecodable _ _ h | unhandled _ _ _ h => exact hparting h hwaits
  | called _ _ _ _ hpos =>
      rw [← Upshot.waits.inj hwaits] at hwake
      obtain rfl := Option.some.inj hwake
      omega
  | answered _ _ _ _ _ h | resumed _ h => exact hreply h hwaits
  | removed => cases hwaits

theorem Fresh.alert {c : Consumer} (h : c.Fresh) : Alert c where
  loop := by simp [h.phase, Phase.wakeAt?]
  tasks := by simp [h.tasks]

namespace Alert

variable {c c' : Consumer}

/-- Without turns all alarms are yet to ring. -/
theorem later (h : Alert c) (hidle : c.turns = []) {alarm : Nat × Nat × Party}
    (halarm : alarm ∈ c.pending) : c.now < alarm.1 := by
  obtain ⟨instant, place, party⟩ := alarm
  cases party with
  | loop =>
      have hrings := h.loop instant (mem_pending_loop.1 halarm).1
      simpa [hidle] using hrings
  | task n =>
      obtain ⟨task, htask, rfl, -, hwake⟩ := mem_pending.1 halarm
      have hrings := h.tasks task htask instant hwake
      simpa [hidle] using hrings

/-- More turns, and other things that tasks do not wait for, change nothing. -/
theorem given (h : Alert c) (hnow : c'.now = c.now) (hphase : c'.phase = c.phase)
    (htasks : c'.tasks = c.tasks) (hturns : c.turns ⊆ c'.turns) : Alert c' where
  loop wakeAt hwake := by
    rw [hphase] at hwake
    rw [hnow]
    exact (h.loop wakeAt hwake).imp id (hturns ·)
  tasks task htask wakeAt hwake := by
    rw [htasks] at htask
    rw [hnow]
    exact (h.tasks task htask wakeAt hwake).imp id (hturns ·)

/-- The loop has set its alarm for later, and no task's turn is lost. -/
theorem loopTurn (h : Alert c) :
    Alert ({ c with turns := c.turns.erase .loop }.loopTurn) := by
  obtain ⟨queue, phase, turns, tasks, ended, report, alarm, alarms, news, hbeat, -, hturn⟩ :=
    loopTurn_beat { c with turns := c.turns.erase .loop }
  have hold : c.turns.erase .loop ⊆ turns → ∀ task ∈ c.tasks, ∀ wakeAt,
      task.wakeAt? = some wakeAt → c.now < wakeAt ∨ .task task.delivery.number ∈ turns := by
    intro hturns task htask wakeAt hwake
    exact (h.tasks task htask wakeAt hwake).imp id fun hmem =>
      hturns ((List.mem_erase_of_ne (by simp)).2 hmem)
  rw [hturn]
  cases hbeat with
  | rests hphase =>
      simp only at hphase
      refine ⟨?_, hold (List.Subset.refl _)⟩
      rcases hphase with hphase | hphase <;> simp [hphase, Phase.wakeAt?]
  | begins | drains | resumes | retries =>
      exact ⟨by simp [Phase.wakeAt?], hold (List.subset_cons_self ..)⟩
  | closes _ hphase =>
      refine ⟨?_, hold (List.Subset.refl _)⟩
      rcases hphase with rfl | rfl <;> simp [Phase.wakeAt?]
  | pauses _ _ _ _ hlater | waits _ _ _ _ hlater =>
      refine ⟨fun wakeAt hwake => .inl ?_, hold (List.Subset.refl _)⟩
      rwa [← Option.some.inj hwake]
  | takes =>
      refine ⟨by simp [Phase.wakeAt?], fun task htask wakeAt hwake => ?_⟩
      rcases List.mem_append.1 htask with hrunning | hbegun
      · exact hold (List.subset_cons_of_subset _ (List.subset_append_left ..)) task hrunning wakeAt
          hwake
      · obtain ⟨d, -, rfl⟩ := List.mem_map.1 hbegun
        cases hwake

/-- A task that has had its turn has set its alarm for later, or is over. -/
theorem stint (h : Alert c) {task : Task} {stint : Stint} (hdoes : Does c task stint) :
    Alert
      ({ c with turns := c.turns.erase (.task task.delivery.number) }.perform task stint) := by
  have hloop : .loop ∈ c.turns → .loop ∈ c.turns.erase (.task task.delivery.number) :=
    (List.mem_erase_of_ne (by simp)).2
  have hother : ∀ other ∈ c.tasks, other.delivery.number ≠ task.delivery.number → ∀ wakeAt,
      other.wakeAt? = some wakeAt → c.now < wakeAt ∨
        .task other.delivery.number ∈ c.turns.erase (.task task.delivery.number) := by
    intro other hmem hne wakeAt hwake
    exact (h.tasks other hmem wakeAt hwake).imp id (List.mem_erase_of_ne (by simpa using hne)).2
  obtain ⟨notes, q, calls, service, deletions, upshot⟩ := stint
  cases upshot with
  | waits state =>
      rw [perform_waits]
      refine ⟨fun wakeAt hwake => (h.loop wakeAt hwake).imp id hloop, fun other hmem => ?_⟩
      obtain ⟨before, hbefore, rfl⟩ := List.mem_map.1 hmem
      by_cases hnumber : before.delivery.number = task.delivery.number
      · rw [if_pos hnumber]
        exact fun wakeAt hwake => .inl (hdoes.wakes_later rfl hwake)
      · rw [if_neg hnumber]
        exact hother before hbefore hnumber
  | ended ending =>
      rw [perform_over]
      have hwoken : ∀ {turns : List Party} {wakes : Prop} [Decidable wakes],
          turns ⊆ if wakes then turns ++ [.loop] else turns := by
        intro turns wakes _
        split <;> simp
      refine ⟨fun wakeAt hwake => (h.loop wakeAt hwake).imp id fun hmem => hwoken (hloop hmem),
        fun other hmem wakeAt hwake => ?_⟩
      obtain ⟨hbefore, hne⟩ := List.mem_filter.1 hmem
      exact (hother other hbefore (bne_iff_ne.1 hne) wakeAt hwake).imp id (hwoken ·)

/-- Whoever's alarm rings gets a turn. -/
theorem ring (h : Alert c) (instant : Nat) : Alert (c.ring instant) := by
  have hrings : ∀ {wakeAt place : Nat} {party : Party}, (wakeAt, place, party) ∈ c.pending →
      c.now < wakeAt ∨ party ∈ c.turns →
        max c.now instant < wakeAt ∨ party ∈ (c.ring instant).turns := by
    intro wakeAt place party halarm hbefore
    rw [mem_turns_ring]
    by_cases hle : wakeAt ≤ instant
    · exact .inr (.inr ⟨_, halarm, hle, rfl⟩)
    · exact hbefore.imp (by omega) .inl
  exact ⟨fun wakeAt hwake => hrings (mem_pending_loop.2 ⟨hwake, rfl⟩) (h.loop wakeAt hwake),
    fun task htask wakeAt hwake => hrings (mem_pending.2 ⟨task, htask, rfl, rfl, hwake⟩)
      (h.tasks task htask wakeAt hwake)⟩

theorem move (h : Alert c) (hseated : Seated c) (hmove : Move c c') : Alert c' := by
  cases hmove with
  | turn party hparty =>
      cases party with
      | loop => exact h.loopTurn
      | task n =>
          obtain ⟨task, -, rfl, stint, hdoes, hturn⟩ := hseated.taskTurn hparty
          rw [turnOf, hturn]
          exact h.stint hdoes
  | pass instant => exact h.ring instant
  | start =>
      unfold Consumer.start
      split
      · have hturns := subset_wakeLoop { c with phase := .starting }
        rw [wakeLoop_record] at hturns ⊢
        exact ⟨by simp [Phase.wakeAt?], fun task htask wakeAt hwake =>
          (h.tasks task htask wakeAt hwake).imp id (hturns ·)⟩
      · exact h
  | stop =>
      obtain ⟨turns, hturns, -, hrecord⟩ := rouse_record { c with stopAsked := true }
      rw [Consumer.stop, hrecord]
      exact h.given rfl rfl rfl hturns
  | send body =>
      obtain ⟨q, turns, hturns, hrecord⟩ := c.send_record body
      rw [hrecord]
      exact h.given rfl rfl rfl hturns
  | publish event =>
      obtain ⟨q, turns, news, hturns, hrecord⟩ := c.publish_record event
      rw [hrecord]
      exact h.given rfl rfl rfl hturns
  | fail faults => exact h.given rfl rfl rfl (List.Subset.refl _)
  | reorder leases => exact h.given rfl rfl rfl (List.Subset.refl _)

end Alert

/-! ## What is left to do at an instant -/

/-- How many turns at most a loop with a turn takes at an instant if it receives nothing. -/
def Phase.pace : Phase → Nat
  | .polling => 2
  | .starting | .receiving _ | .pausing _ => 3
  | .idle | .draining | .stopped => 1

/-- How many turns at most are left at an instant.  Whatever there is to receive makes a task, and
gives the loop another turn. -/
def business (c : Consumer) : Nat :=
  5 * (c.queue.available c.now).length + c.queue.faults.receives + work c.tasks +
    if .loop ∈ c.turns then c.phase.pace else 0

/-- The tasks of a batch have all to do that a task can have. -/
theorem work_batch (tasks : List Task) (batch : List Delivery) :
    work (tasks ++ batch.map fun d => ⟨d, .ready, 0⟩) = work tasks + 4 * batch.length := by
  induction tasks with
  | nil =>
      induction batch with
      | nil => rfl
      | cons d rest ih =>
          simp only [List.nil_append, List.map_cons, work, List.length_cons] at ih ⊢
          rw [ih]
          simp only [TaskState.left]
          omega
  | cons task rest ih =>
      simp only [List.cons_append, work]
      omega

section

variable {c : Consumer}

/-- A beat uses up what there is to receive, a fault, or the turn. -/
theorem Beat.business_lt {queue : Queue} {phase : Phase} {turns : List Party} {tasks : List Task}
    {news : List (Nat × Incident)} (h : Beat c queue phase turns tasks news)
    (hvisibility : 0 < c.queue.visibility) (hwait : 0 < c.settings.waitTime)
    (hloop : .loop ∉ c.turns) :
    5 * (queue.available c.now).length + queue.faults.receives + work tasks +
        (if .loop ∈ turns then phase.pace else 0) <
      5 * (c.queue.available c.now).length + c.queue.faults.receives + work c.tasks +
        c.phase.pace := by
  have hleft : ∀ max, ((c.queue.look c.now max).1.available c.now).length =
      (c.queue.available c.now).length - max := by
    intro max
    rw [Queue.available_look hvisibility, List.length_drop]
  cases h with
  | rests hphase =>
      rw [if_neg hloop]
      rcases hphase with hphase | hphase <;> simp [hphase, Phase.pace]
  | begins hphase | resumes _ hphase => simp [hphase, Phase.pace]
  | drains _ hphase =>
      cases hstate : c.phase <;> simp [hstate, Phase.sleeps, Phase.pace] at hphase ⊢
  | closes hphase => simp [hloop, hphase, Phase.pace]
  | retries _ _ hphase hfaults =>
      rw [hphase, hfaults, if_pos List.mem_cons_self]
      exact Nat.add_lt_add_right (Nat.add_lt_add_right (Nat.lt_succ_self _) _) _
  | pauses _ _ hphase hfaults =>
      rw [hphase, hfaults, if_neg hloop]
      simp only [Phase.pace, Queue.available]
      omega
  | @takes _ receives max _ hphase =>
      have htaken := c.queue.length_look c.now max
      rw [work_batch, if_pos List.mem_cons_self]
      show 5 * ((c.queue.look c.now max).1.available c.now).length + c.queue.faults.receives + _ +
        2 < _
      rw [hleft]
      rcases hphase with ⟨hphase, hfound⟩ | ⟨poll, hphase⟩
      · have hsome := List.length_pos_iff.2 (hfound.resolve_right (Nat.ne_of_gt hwait))
        rw [hphase]
        simp only [Phase.pace]
        omega
      · rw [hphase]
        simp only [Phase.pace]
        omega
  | @waits _ _ receives max _ hphase =>
      rw [if_neg hloop]
      show 5 * ((c.queue.look c.now max).1.available c.now).length + c.queue.faults.receives + _ +
        0 < _
      rw [hleft]
      rcases hphase with hphase | ⟨poll, hphase⟩
      · rw [hphase]
        simp only [Phase.pace]
        omega
      · rw [hphase]
        simp only [Phase.pace]
        omega

/-- Every turn leaves less to do at its instant. -/
theorem business_turn_lt (hseated : Seated c) (hnumbers : (c.tasks.map (·.delivery.number)).Nodup)
    (hvisibility : 0 < c.queue.visibility) (hwait : 0 < c.settings.waitTime) {party : Party}
    (hparty : party ∈ c.turns) :
    ({ c with turns := c.turns.erase party }.turnOf party).business < c.business := by
  cases party with
  | loop =>
      obtain ⟨queue, phase, turns, tasks, ended, report, alarm, alarms, news, hbeat, -, hturn⟩ :=
        loopTurn_beat { c with turns := c.turns.erase .loop }
      rw [turnOf, hturn, business, business, if_pos hparty]
      exact hbeat.business_lt hvisibility hwait hseated.nodup.not_mem_erase
  | task n =>
      obtain ⟨c', hturn, hphase, hless⟩ := work_taskTurn hseated hnumbers hparty
      have hqueue : (c'.queue.available c'.now).length ≤ (c.queue.available c.now).length ∧
          c'.queue.faults.receives = c.queue.faults.receives := by
        obtain ⟨queue, calls, service, deletions, news, alarms, tasks, ended, turns, hqueue, -, -,
          hrecord⟩ := taskTurn_record { c with turns := c.turns.erase (.task n) } n
        rw [← hturn, hrecord]
        rcases hqueue with rfl | ⟨token, rfl⟩
        · exact ⟨Nat.le_refl _, rfl⟩
        · exact ⟨Queue.length_available_delete_le .., Queue.receives_faults_delete ..⟩
      rw [turnOf, hturn, business, business, hphase, hqueue.2]
      rcases hless with ⟨hless, hloop⟩ | ⟨hless, hloop⟩
      · simp only [hloop]
        omega
      · -- the loop may have got a turn, which the task has had to spare
        have hwoken : (if .loop ∈ c'.turns then c.phase.pace else 0) ≤
            (if .loop ∈ c.turns then c.phase.pace else 0) + 1 := by
          simp only [hloop]
          by_cases hbefore : .loop ∈ c.turns
          · simp [hbefore]
          · by_cases hdraining : c.phase = .draining <;> simp [hbefore, hdraining, Phase.pace]
        omega

end

/-! ## Runs -/

variable {c₀ c : Consumer} {visibility : Nat}

/-- No run misses an alarm. -/
theorem Runs.alert (h : Runs c₀ c) (hfresh : c₀.Fresh) (hqueue : c₀.queue.Sound) : Alert c := by
  induction h with
  | refl => exact hfresh.alert
  | move hruns hmove ih => exact ih.move (hruns.seated hfresh hqueue) hmove

/-- Leases run as long as ever. -/
theorem Runs.visibility_eq (h : Runs c₀ c) : c.queue.visibility = c₀.queue.visibility := by
  induction h with
  | refl => rfl
  | move _ hmove ih => exact hmove.roster.visibility_eq.trans ih

/-- A step takes no time, or as much as there is before its limit. -/
theorem now_step {c' : Consumer} {limit : Nat} (h : c.step? limit = some c') :
    c.now ≤ c'.now ∧ c'.now ≤ max c.now limit := by
  cases hturns : c.turns with
  | cons party turns =>
      rw [step_of_turns hturns] at h
      obtain rfl := Option.some.inj h
      rw [now_turnOf]
      exact ⟨Nat.le_refl _, Nat.le_max_left ..⟩
  | nil =>
      obtain ⟨instant, -, hlt, rfl⟩ := ring_of_step hturns h
      simp only [ring]
      omega

theorem now_steps (c : Consumer) (limit n : Nat) :
    c.now ≤ (steps limit n c).now ∧ (steps limit n c).now ≤ max c.now limit := by
  induction n generalizing c with
  | zero => exact ⟨Nat.le_refl _, Nat.le_max_left ..⟩
  | succ n ih =>
      rw [steps]
      cases hstep : c.step? limit with
      | none => exact ⟨Nat.le_refl _, Nat.le_max_left ..⟩
      | some next =>
          have hnext := now_step hstep
          have hrest := ih next
          simp only
          omega

/-- **Every instant comes to an end.** If receives wait and leases last, a run gets by itself to
where nothing is left to do before an instant. -/
theorem PatientRuns.exists_settled (hfresh : c₀.Fresh)
    (hqueue : Queue.Reachable visibility c₀.queue) (hvisibility : 0 < visibility)
    (hwait : 0 < c₀.settings.waitTime) (h : PatientRuns c₀ c) (limit : Nat) :
    ∃ n, (steps limit n c).step? limit = none := by
  -- the induction is on the time that is left, and at an instant on what is left to do
  generalize hspan : limit - c.now = span
  induction span using Nat.strongRecOn generalizing c with
  | ind span later =>
  generalize hbusiness : c.business = business
  induction business using Nat.strongRecOn generalizing c with
  | ind business less =>
  subst hspan hbusiness
  cases hstep : c.step? limit with
  | none => exact ⟨0, hstep⟩
  | some next =>
      have hnext : PatientRuns c₀ next := h.move (move_of_step hstep) (idle_of_step hstep)
      suffices hrest : ∃ n, (steps limit n next).step? limit = none by
        obtain ⟨n, hrest⟩ := hrest
        refine ⟨n + 1, ?_⟩
        rw [steps, hstep]
        exact hrest
      cases hturns : c.turns with
      | cons party turns =>
          rw [step_of_turns hturns] at hstep
          obtain rfl := Option.some.inj hstep
          have horderly := h.runs.orderly hfresh hqueue.sound
          refine less _ ?_ hnext (by rw [now_turnOf]) rfl
          refine business_turn_lt (h.runs.seated hfresh hqueue.sound) horderly.books.tasks_nodup
            ?_ ?_ (hturns ▸ List.mem_cons_self)
          · rwa [h.runs.visibility_eq, hqueue.visibility_eq]
          · rwa [horderly.books.settings]
      | nil =>
          obtain ⟨instant, halarm, hlt, rfl⟩ := ring_of_step hturns hstep
          obtain ⟨alarm, hmem, rfl⟩ := mem_of_nextAlarm halarm
          have hlater := (h.runs.alert hfresh hqueue.sound).later hturns hmem
          refine later _ ?_ hnext rfl
          simp only [ring]
          omega

end ProductCatalog.Consumer
