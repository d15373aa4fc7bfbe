import Mathlib.Computability.StateTransition
import ProductCatalog.Proofs.Consumer.Promptness

/-!
# What the loop sees

The loop of a consumer shares with its tasks the queue, the clock and the one
thread that all of them run on.  As long as no lease runs out, none of this
lets it see anything of them: a task touches leases only, and the time that
passes until its alarm passes for nobody else.

What the loop sees goes on by itself, in one way only.  Everything that a
consumer does is a step of it or does not show in it at all.

## Main definitions

* `Queue.bare` — what a receive sees of a queue.
* `Outlook`, `Consumer.outlook` — what the loop sees.
* `Outlook.next?` — how it goes on.
* `GoesOn` — a run that goes on by itself before an instant.

## Main results

* `outlook_loopTurn` — a turn of the loop depends on what the loop sees.
* `outlook_taskTurn`, `outlook_ring` — what else happens.
* `GoesOn.outlook_mem` — what the loop sees at the end is what it comes to by
  itself.
-/

namespace ProductCatalog

namespace Queue

variable {q : Queue} {now : Nat}

/-- What a receive sees of a queue as long as no lease runs out. -/
def bare (q : Queue) : Queue :=
  { q with leased := [], deleted := [], faults := { q.faults with deletes := 0 } }

/-- No lease has run out. -/
def Spared (q : Queue) (now : Nat) : Prop := ∀ lease ∈ q.leased, now < lease.visibleAt

/-- A deletion is nothing that a receive sees. -/
theorem bare_delete (q : Queue) (token : String) : (q.delete token).1.bare = q.bare := by
  unfold delete
  split
  · rfl
  · split <;> rfl

/-- There is nothing to reclaim as long as no lease runs out. -/
theorem reclaim_of_spared (h : q.Spared now) : q.reclaim now = q := by
  have hnone : q.leased.filter (Lease.expired now) = [] :=
    List.filter_eq_nil_iff.2 fun lease hl => by simpa [Lease.expired] using h lease hl
  have hall : (q.leased.filter fun lease => !lease.expired now) = q.leased :=
    List.filter_eq_self.2 fun lease hl => by simpa [Lease.expired] using h lease hl
  rw [reclaim, hnone, hall, List.map_nil, List.append_nil]

/-- A look finds what a receive sees, and leaves the same of it to be seen. -/
theorem look_bare (h : q.Spared now) (max : Nat) :
    (q.bare.look now max).2 = (q.look now max).2 ∧
      (q.bare.look now max).1.bare = (q.look now max).1.bare := by
  have hbare : q.bare.Spared now := by simp [Spared, bare]
  rw [look, look, reclaim_of_spared h, reclaim_of_spared hbare]
  exact ⟨rfl, rfl⟩

theorem poll_bare (h : q.Spared now) (max deadline : Nat) :
    (q.bare.poll now max deadline).2 = (q.poll now max deadline).2 ∧
      (q.bare.poll now max deadline).1.bare = (q.poll now max deadline).1.bare := by
  obtain ⟨hfound, hleft⟩ := look_bare h max
  unfold poll
  simp only [hfound]
  split
  · exact ⟨rfl, hleft⟩
  · exact ⟨rfl, hleft⟩

theorem receive_bare (h : q.Spared now) (max wait : Nat) :
    (q.bare.receive now max wait).2 = (q.receive now max wait).2 ∧
      (q.bare.receive now max wait).1.bare = (q.receive now max wait).1.bare := by
  cases hfaults : q.faults.receives with
  | zero =>
      rw [receive_eq_poll hfaults, receive_eq_poll (q := q.bare) hfaults]
      exact poll_bare (q := { q with receives := q.receives + 1 }) h max (now + wait)
  | succ n =>
      rw [receive_of_fault hfaults, receive_of_fault (q := q.bare) hfaults]
      exact ⟨rfl, rfl⟩

end Queue

namespace Consumer

/-! ## The outlook of the loop -/

/-- A phase as the loop sees it.  Once it has stopped receiving it sees nothing any more. -/
def Phase.seen : Phase → Phase
  | .draining => .stopped
  | phase => phase

/-- What the loop sees. -/
structure Outlook where
  settings : Settings
  queue : Queue
  asked : Bool
  phase : Phase
  /-- The instant at which the loop has a turn, if it has one. -/
  turn : Option Nat
  receives : List (Nat × Incident)

/-- What the loop of a consumer sees. -/
def outlook (c : Consumer) : Outlook where
  settings := c.settings
  queue := c.queue.bare
  asked := c.stopAsked
  phase := c.phase.seen
  turn := if c.phase.seen ≠ .stopped ∧ .loop ∈ c.turns then some c.now else none
  receives := receives c.history

namespace Outlook

/-- A consumer that has no tasks and whose loop sees just this at an instant. -/
def consumer (o : Outlook) (now : Nat) : Consumer where
  settings := o.settings
  queue := o.queue
  now := now
  stopAsked := o.asked
  phase := o.phase
  turns := if o.turn.isSome then [.loop] else []
  history := o.receives

/-- An instant comes, and with it the loop's alarm if this is when it rings. -/
def rung (o : Outlook) (instant : Nat) : Outlook :=
  if o.phase.wakeAt? = some instant then { o with turn := some instant } else o

/-- How what the loop sees goes on before an instant. -/
def next? (limit : Nat) (o : Outlook) : Option Outlook :=
  match o.turn, o.phase.wakeAt? with
  | some now, _ => some (({ o with turn := none }.consumer now).loopTurn.outlook)
  | none, some wakeAt => if wakeAt < limit then some { o with turn := some wakeAt } else none
  | none, none => none

end Outlook

section

variable (c : Consumer)

/-- Whoever sees the same from the outset sees the same. -/
theorem outlook_consumer : (c.outlook.consumer c.now).outlook = c.outlook := by
  have hphase : c.phase.seen.seen = c.phase.seen := by cases c.phase <;> rfl
  have hreceives : receives (receives c.history) = receives c.history := by simp [receives]
  simp only [outlook, Outlook.consumer, hphase, hreceives]
  by_cases hturn : c.phase.seen ≠ .stopped ∧ .loop ∈ c.turns
  · simp [hturn, Queue.bare]
  · simp [if_neg hturn, Queue.bare]

theorem outlook_note_quiet {i : Incident} (h : i.ofReceive = false) :
    (c.note i).outlook = c.outlook := by
  rw [outlook, outlook, receives_note_quiet _ h]
  rfl

theorem outlook_note {i : Incident} (h : i.ofReceive = true) :
    (c.note i).outlook = { c.outlook with receives := receives c.history ++ [(c.now, i)] } := by
  rw [outlook, outlook, receives_note _ h]
  rfl

theorem outlook_goOn {phase : Phase} (h : phase.seen ≠ .stopped) :
    (c.goOn phase).outlook = { c.outlook with phase := phase.seen, turn := some c.now } := by
  rw [outlook, if_pos ⟨h, List.mem_cons_self⟩]
  rfl

theorem outlook_drain :
    c.drain.outlook = { c.outlook with phase := .stopped, turn := none } := by
  rw [← c.outlook_note_quiet (i := .draining (c.tasks.length + c.ended.length)) rfl]
  rfl

theorem outlook_countEnded : c.countEnded.outlook = c.outlook := by
  have hreceives := c.receives_countEnded
  rw [countEnded_record] at hreceives ⊢
  rw [outlook, outlook, hreceives]

end

variable {c c' : Consumer}

/-- How a receive goes on shows as it is seen to. -/
theorem outlook_settle {looked looked' : Queue × Queue.PollState} (h : c.outlook = c'.outlook)
    (hnow : c.now = c'.now) (hloop : .loop ∉ c.turns) (hloop' : .loop ∉ c'.turns)
    (hstate : looked.2 = looked'.2) (hbare : looked.1.bare = looked'.1.bare) :
    (c.settle looked).outlook = (c'.settle looked').outlook := by
  have hsettings : c.settings = c'.settings := congrArg Outlook.settings h
  have hasked : c.stopAsked = c'.stopAsked := congrArg Outlook.asked h
  have hreceives : receives c.history = receives c'.history := congrArg Outlook.receives h
  obtain ⟨q, state⟩ := looked
  obtain ⟨q', state'⟩ := looked'
  obtain rfl : state = state' := hstate
  cases state with
  | waiting poll =>
      simp only [settle, await, outlook, hsettings, hasked, hreceives, hbare, hloop, hloop', hnow]
  | finished result =>
      cases result with
      | ok batch =>
          simp only [settle, dispatch, goOn, note, outlook, hsettings, hasked, hbare, hnow,
            receives_append, hreceives, List.mem_cons_self]
      | error error =>
          simp only [settle, note, ← hsettings]
          split
          · simp only [goOn, outlook, hasked, hbare, hnow, receives_append, hreceives,
              List.mem_cons_self]
          · simp only [await, outlook, hasked, hbare, hnow, receives_append, hreceives, hloop,
              hloop']

/-- A turn of the loop depends on what the loop sees, as long as no lease runs out. -/
theorem outlook_loopTurn (hspared : c.queue.Spared c.now) (hopen : c.phase.seen ≠ .stopped)
    (hloop : .loop ∉ c.turns) :
    c.loopTurn.outlook = (c.outlook.consumer c.now).loopTurn.outlook := by
  have hsame := c.outlook_consumer
  have hturns : (c.outlook.consumer c.now).turns = [] := by
    simp [Outlook.consumer, outlook, hloop]
  have hqueue : (c.outlook.consumer c.now).queue = c.queue.bare := rfl
  have hsettings : (c.outlook.consumer c.now).settings = c.settings := rfl
  have hasked : (c.outlook.consumer c.now).stopAsked = c.stopAsked := rfl
  have hnow : (c.outlook.consumer c.now).now = c.now := rfl
  have hphase' : (c.outlook.consumer c.now).phase = c.phase.seen := rfl
  have hended : (c.outlook.consumer c.now).countEnded = c.outlook.consumer c.now := rfl
  have hnone : .loop ∉ (c.outlook.consumer c.now).turns := by simp [hturns]
  generalize c.outlook.consumer c.now = c' at *
  unfold loopTurn
  rw [hphase']
  cases hphase : c.phase with
  | idle => exact hsame.symm
  | draining | stopped => exact absurd (by rw [hphase]; rfl) hopen
  | starting =>
      simp only [Phase.seen]
      rw [outlook_goOn _ (by simp [Phase.seen]), outlook_goOn _ (by simp [Phase.seen]),
        outlook_note_quiet _ rfl, outlook_note_quiet _ rfl, hsame]
      simp only [note, hnow]
  | polling =>
      obtain ⟨hcounted, hcsettings, hcnow, hcasked, hcturns, hcqueue⟩ :
          c.countEnded.outlook = c.outlook ∧ c.countEnded.settings = c.settings ∧
            c.countEnded.now = c.now ∧ c.countEnded.stopAsked = c.stopAsked ∧
              c.countEnded.turns = c.turns ∧ c.countEnded.queue = c.queue := by
        refine ⟨c.outlook_countEnded, ?_⟩
        rw [countEnded_record]
        exact ⟨rfl, rfl, rfl, rfl, rfl⟩
      simp only [Phase.seen, hended, hasked, hcasked]
      split
      · rw [outlook_drain, outlook_drain, hsame, hcounted]
      · rw [beginReceive, beginReceive, hqueue, hnow, hsettings, hcqueue, hcnow, hcsettings]
        have hreceive := Queue.receive_bare hspared c.settings.maxMessages c.settings.waitTime
        refine outlook_settle ?_ (hcnow.trans hnow.symm) (hcturns ▸ hloop) hnone hreceive.1.symm
          hreceive.2.symm
        have hreceives : receives c.countEnded.history = receives c'.history :=
          congrArg Outlook.receives (hcounted.trans hsame.symm)
        rw [outlook_note _ rfl, outlook_note _ rfl, hcounted, hsame, hcnow, hnow, hreceives]
  | receiving poll =>
      simp only [Phase.seen, hasked]
      split
      · rw [outlook_drain, outlook_drain, hsame]
      · rw [hqueue, hnow]
        have hpoll := Queue.poll_bare hspared poll.max poll.deadline
        exact outlook_settle hsame.symm hnow.symm hloop hnone hpoll.1.symm hpoll.2.symm
  | pausing wakeAt =>
      simp only [Phase.seen, hasked]
      split
      · rw [outlook_drain, outlook_drain, hsame]
      · rw [outlook_goOn _ (by simp [Phase.seen]), outlook_goOn _ (by simp [Phase.seen]), hsame,
          hnow]

theorem outlook_closed (h : c.phase.seen = .stopped) :
    c.outlook =
      ⟨c.settings, c.queue.bare, c.stopAsked, .stopped, none, receives c.history⟩ := by
  simp [outlook, h]

/-- A loop that has stopped receiving sees nothing of its turns. -/
theorem outlook_loopTurn_closed (hclosed : c.phase.seen = .stopped) :
    c.loopTurn.outlook = c.outlook := by
  have hcounted : c.countEnded.phase.seen = .stopped := by
    rw [countEnded_record]
    exact hclosed
  unfold loopTurn
  cases hphase : c.phase with
  | stopped => rfl
  | draining =>
      simp only
      split
      · rw [outlook_note_quiet _ rfl, ← c.outlook_countEnded, outlook_closed hcounted]
        exact outlook_closed rfl
      · exact c.outlook_countEnded
  | idle | starting | polling | receiving | pausing =>
      exact absurd hclosed (by simp [hphase, Phase.seen])

/-- The loop sees nothing of the turns of tasks. -/
theorem outlook_taskTurn (n : Nat) :
    ({ c with turns := c.turns.erase (.task n) }.taskTurn n).outlook = c.outlook := by
  obtain ⟨queue, calls, service, deletions, news, alarms, tasks, ended, turns, hqueue, hnews,
    hturns, hrecord⟩ := taskTurn_record { c with turns := c.turns.erase (.task n) } n
  have hbare : queue.bare = c.queue.bare := by
    rcases hqueue with rfl | ⟨token, rfl⟩
    · rfl
    · exact Queue.bare_delete ..
  have hreceives : receives (c.history ++ news) = receives c.history :=
    receives_quiet fun x hx => (hnews x hx).2
  have hturn : (c.phase.seen ≠ .stopped ∧ .loop ∈ turns) ↔
      (c.phase.seen ≠ .stopped ∧ .loop ∈ c.turns) := by
    rcases hturns with rfl | ⟨hdraining, -, -⟩
    · rw [List.mem_erase_of_ne (by simp)]
    · have hclosed : c.phase.seen = .stopped := by
        simp only at hdraining
        rw [hdraining]
        rfl
      simp [hclosed]
  rw [hrecord]
  simp only [outlook, hbare, hreceives, hturn]

theorem Phase.wakeAt?_seen (phase : Phase) : phase.seen.wakeAt? = phase.wakeAt? := by
  cases phase <;> rfl

/-- The loop sees an instant come only if its alarm rings. -/
theorem outlook_ring {instant : Nat} (hidle : c.turns = []) (hnow : c.now ≤ instant)
    (halarms : ∀ alarm ∈ c.pending, instant ≤ alarm.1) :
    (c.ring instant).outlook = c.outlook.rung instant := by
  have hwake : c.outlook.phase.wakeAt? = c.phase.wakeAt? := c.phase.wakeAt?_seen
  have hmax : (c.ring instant).now = instant := Nat.max_eq_right hnow
  have hrings : .loop ∈ (c.ring instant).turns ↔ c.phase.wakeAt? = some instant := by
    rw [mem_turns_ring, hidle, or_iff_right List.not_mem_nil]
    constructor
    · rintro ⟨⟨wakeAt, place, party⟩, halarm, hle, rfl⟩
      have hleast := halarms _ halarm
      obtain rfl : wakeAt = instant := Nat.le_antisymm hle hleast
      exact (mem_pending_loop.1 halarm).1
    · intro hwake
      exact ⟨_, mem_pending_loop.2 ⟨hwake, rfl⟩, Nat.le_refl _, rfl⟩
  rw [Outlook.rung, hwake]
  split
  · next hloop =>
      have hopen : c.phase.seen ≠ .stopped := by
        intro hclosed
        rw [← c.phase.wakeAt?_seen, hclosed] at hloop
        cases hloop
      rw [outlook, if_pos ⟨hopen, hrings.2 hloop⟩, hmax]
      rfl
  · next hloop =>
      rw [outlook, outlook, if_neg fun h => hloop (hrings.1 h.2), if_neg fun h => by
        rw [hidle] at h
        exact List.not_mem_nil h.2]
      rfl

/-- The loop has nothing to do for itself before an instant if nobody has. -/
theorem next_eq_none {limit : Nat} (h : c.step? limit = none) :
    c.outlook.next? limit = none := by
  have hturn : c.outlook.turn = none := by simp [outlook, idle_of_step_none h]
  rw [Outlook.next?, hturn]
  cases hwake : c.outlook.phase.wakeAt? with
  | none => rfl
  | some wakeAt =>
      have halarm := mem_pending_loop.2 ⟨c.phase.wakeAt?_seen ▸ hwake, rfl⟩
      exact if_neg (Nat.not_lt_of_le (le_of_step_none h _ halarm))

/-- A loop that has no turn waits at least until its alarm rings. -/
theorem next_zero_eq_none (h : .loop ∉ c.turns) : c.outlook.next? 0 = none := by
  have hturn : c.outlook.turn = none := by simp [outlook, h]
  rw [Outlook.next?, hturn]
  cases c.outlook.phase.wakeAt? with
  | none => rfl
  | some wakeAt => exact if_neg (Nat.not_lt_zero wakeAt)

/-! ## Runs -/

/-- No lease has run out. -/
def Spared (c : Consumer) : Prop := c.queue.Spared c.now

instance (c : Consumer) : Decidable c.Spared :=
  inferInstanceAs (Decidable (∀ lease ∈ c.queue.leased, c.now < lease.visibleAt))

/-- A run goes on by itself before an instant.  Whoever has a turn may take it, and something
holds whenever anything happens. -/
inductive GoesOn (P : Consumer → Prop) (limit : Nat) : Consumer → Consumer → Prop
  | refl {c : Consumer} : GoesOn P limit c c
  | turn {c c' : Consumer} (party : Party) (hP : P c) (hparty : party ∈ c.turns)
      (h : GoesOn P limit ({ c with turns := c.turns.erase party }.turnOf party) c') :
      GoesOn P limit c c'
  | ring {c c' : Consumer} {instant : Nat} (hP : P c) (hidle : c.turns = [])
      (halarm : c.nextAlarm = some instant) (hlimit : instant < limit)
      (h : GoesOn P limit (c.ring instant) c') : GoesOn P limit c c'

namespace GoesOn

variable {P : Consumer → Prop} {limit : Nat} {c₀ : Consumer}

/-- Going on before an instant gets to it at most. -/
theorem now_bounds (h : GoesOn P limit c c') : c.now ≤ c'.now ∧ c'.now ≤ max c.now limit := by
  induction h with
  | refl => exact ⟨Nat.le_refl _, Nat.le_max_left ..⟩
  | turn party _ _ _ ih => rwa [now_turnOf] at ih
  | @ring c _ instant _ _ _ hlimit _ ih =>
      have hring : (c.ring instant).now = max c.now instant := rfl
      omega

/-- Going on is running on a patient clock. -/
theorem patientRuns (h : GoesOn P limit c c') (hruns : PatientRuns c₀ c) : PatientRuns c₀ c' := by
  induction h with
  | refl => exact hruns
  | turn party _ hparty _ ih =>
      exact ih (hruns.prompt (.turn party hparty) (now_turnOf _ party))
  | ring _ hidle halarm _ _ ih =>
      exact ih (hruns.move (.pass _ (le_of_nextAlarm halarm)) fun _ => hidle)

/-- What a consumer does by itself is one of the ways to go on. -/
theorem of_steps {n : Nat} (hP : ∀ k < n, P (steps limit k c)) :
    GoesOn P limit c (steps limit n c) := by
  induction n generalizing c with
  | zero => exact .refl
  | succ n ih =>
      rw [steps]
      cases hstep : c.step? limit with
      | none => exact .refl
      | some next =>
          have hrest : GoesOn P limit next (steps limit n next) := by
            refine ih fun k hk => ?_
            have hlater := hP (k + 1) (Nat.succ_lt_succ hk)
            rwa [steps, hstep] at hlater
          have hfirst : P c := hP 0 (Nat.succ_pos n)
          cases hturns : c.turns with
          | cons party turns =>
              rw [step_of_turns hturns] at hstep
              obtain rfl := Option.some.inj hstep
              exact .turn party hfirst (hturns ▸ List.mem_cons_self) hrest
          | nil =>
              obtain ⟨instant, halarm, hlt, rfl⟩ := ring_of_step hturns hstep
              exact .ring hfirst hturns halarm hlt hrest

/-- Until the loop has nothing left to do, what it sees is what it comes to by itself. -/
theorem outlook_mem (h : GoesOn Spared limit c c') (hdone : c'.outlook.next? limit = none)
    (hfresh : c₀.Fresh) (hqueue : c₀.queue.Sound) (hruns : PatientRuns c₀ c) :
    c'.outlook ∈ StateTransition.eval (Outlook.next? limit) c.outlook := by
  have hstep : ∀ {o o' : Outlook}, o.next? limit = some o' →
      StateTransition.eval (Outlook.next? limit) o =
        StateTransition.eval (Outlook.next? limit) o' :=
    fun h => StateTransition.reaches_eval (.single h)
  induction h with
  | refl => exact StateTransition.mem_eval.2 ⟨.refl, hdone⟩
  | @turn c _ party hspared hparty h ih =>
      have hnext := ih hdone (hruns.prompt (.turn party hparty) (now_turnOf _ party))
      cases party with
      | task n =>
          rw [turnOf, outlook_taskTurn] at hnext
          exact hnext
      | loop =>
          by_cases hopen : c.phase.seen = .stopped
          · rw [turnOf,
              outlook_loopTurn_closed (c := { c with turns := c.turns.erase .loop }) hopen,
              outlook_closed (c := { c with turns := c.turns.erase .loop }) hopen,
              ← outlook_closed hopen] at hnext
            exact hnext
          · have hloop : .loop ∉ c.turns.erase .loop :=
              (hruns.runs.seated hfresh hqueue).nodup.not_mem_erase
            have hturn : c.outlook.turn = some c.now := if_pos ⟨hopen, hparty⟩
            have hbefore : outlook { c with turns := c.turns.erase .loop } =
                { c.outlook with turn := none } := by
              rw [outlook, if_neg fun h => hloop h.2]
              rfl
            rw [turnOf, outlook_loopTurn (c := { c with turns := c.turns.erase .loop })
              hspared hopen hloop, hbefore] at hnext
            rw [hstep (by rw [Outlook.next?, hturn])]
            exact hnext
  | @ring c _ instant hspared hidle halarm hlimit h ih =>
      have hleast := le_of_nextAlarm halarm
      have hnext := ih hdone (hruns.move (.pass instant hleast) fun _ => hidle)
      have hlater : c.now ≤ instant := by
        obtain ⟨alarm, hmem, rfl⟩ := mem_of_nextAlarm halarm
        exact Nat.le_of_lt ((hruns.runs.alert hfresh hqueue).later hidle hmem)
      have hturn : c.outlook.turn = none := by simp [outlook, hidle]
      rw [outlook_ring hidle hlater hleast, Outlook.rung] at hnext
      split at hnext
      · next hwake =>
          rw [hstep (by rw [Outlook.next?, hturn, hwake]; exact if_pos hlimit)]
          exact hnext
      · exact hnext

end GoesOn

end Consumer

end ProductCatalog
