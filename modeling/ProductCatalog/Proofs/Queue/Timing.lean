import ProductCatalog.Proofs.Queue.History

/-!
# Receives look on time

A waiting receive looks at the latest at the instant that it waits for.  The
clock of an exchange sees to this: no instant is left before all receives
that are due have had their turn, and the next one is that of the earliest
look.  So an exchange that is *on time*, with no look overdue, stays so
whatever happens at it, as long as the clock is not pushed past a look.

Time passes at an exchange in rounds, from look to look.  Each round but the
first moves the clock, because whoever has looked and goes on waiting waits
for a later instant.  Hence the rounds that are provided for suffice.

## Main definitions

* `Exchange.OnTime` — no look is overdue.
* `Exchange.Lined` — whoever is due has its turn before the instant is left.
* `Exchange.Closed` — properties that the passing of time keeps.

## Main results

* `Exchange.OnTime.move` — an exchange stays on time.
* `Exchange.OnTime.later` — whoever is due looks before an instant is left.
* `Exchange.Closed.advance`, `Closed.await` — what is kept while time passes.
-/

namespace ProductCatalog

open Text (Bytes)
open Queue (Poll PollState pollTick)

namespace Queue

/-- A receive that waits has found nothing, and waits for an instant before or at its deadline. -/
theorem poll_waiting {q : Queue} {now max deadline : Nat} {poll : Poll}
    (h : (q.poll now max deadline).2 = .waiting poll) :
    (q.look now max).2 = [] ∧ now < deadline ∧ poll.max = max ∧ poll.deadline = deadline ∧
      now < poll.lookAt ∧ poll.lookAt ≤ deadline := by
  unfold Queue.poll at h
  simp only at h
  split at h
  · cases h
  · next hempty =>
      simp only [Bool.or_eq_true, not_or, decide_eq_true_eq, Bool.not_eq_true,
        Bool.not_eq_false'] at hempty
      obtain ⟨hnone, hearly⟩ := hempty
      obtain rfl := PollState.waiting.inj h
      refine ⟨List.isEmpty_iff.1 hnone, by omega, rfl, rfl, ?_, ?_⟩
      · show now < now + min pollTick (deadline - now)
        rw [pollTick]
        omega
      · show now + min pollTick (deadline - now) ≤ deadline
        omega

theorem receive_waiting {q : Queue} {now max wait : Nat} {poll : Poll}
    (h : (q.receive now max wait).2 = .waiting poll) :
    now < poll.lookAt ∧ poll.lookAt ≤ poll.deadline := by
  obtain ⟨receives, faults, ⟨error, hfailed⟩ | hlooked⟩ := q.receive_cases now max wait
  · rw [hfailed] at h
    cases h
  · rw [hlooked] at h
    obtain ⟨-, -, -, hdeadline, hlater, hle⟩ := poll_waiting h
    exact ⟨hlater, by rwa [hdeadline]⟩

end Queue

namespace Exchange

/-- No look is overdue, and whoever waits or has ended has been named. -/
structure OnTime (x : Exchange) : Prop where
  due : ∀ w ∈ x.waiters, x.now ≤ w.poll.lookAt
  bounded : ∀ w ∈ x.waiters, w.poll.lookAt ≤ w.poll.deadline
  waiting : ∀ w ∈ x.waiters, w.name < x.names
  ended : ∀ r ∈ x.results, r.1 < x.names

/-- The clock is not pushed past the look of a receive that waits. -/
def Timely (x x' : Exchange) : Prop :=
  x'.now ≠ x.now → ∀ w ∈ x.waiters, x'.now ≤ w.poll.lookAt

/-! ## The waiting receives -/

section Waiters

variable {x : Exchange} {name : Nat}

theorem names_announce (x : Exchange) : x.announce.names = x.names := by
  unfold announce
  split <;> rfl

theorem results_announce (x : Exchange) : x.announce.results = x.results := by
  unfold announce
  split <;> rfl

/-- Whoever waits behind an announcement has waited before. -/
theorem mem_waiters_announce {w : Waiter} (h : w ∈ x.announce.waiters) :
    ∃ w' ∈ x.waiters, w'.name = w.name ∧ w'.poll = w.poll := by
  unfold announce at h
  split at h
  · exact ⟨w, h, rfl, rfl⟩
  · obtain ⟨w', hw', rfl⟩ := List.mem_map.1 h
    refine ⟨w', hw', ?_⟩
    split <;> exact ⟨rfl, rfl⟩

/-- A receive that goes on waiting waits behind all others. -/
theorem mem_waiters_settle {r : Queue × PollState} {w : Waiter}
    (h : w ∈ (x.settle name r).waiters) :
    w ∈ x.waiters ∨ w.name = name ∧ r.2 = .waiting w.poll := by
  obtain ⟨q, result | poll⟩ := r
  · exact .inl h
  · rcases List.mem_append.1 h with h | h
    · exact .inl h
    · obtain rfl := List.mem_singleton.1 h
      exact .inr ⟨rfl, rfl⟩

theorem mem_results_settle {r : Queue × PollState}
    {result : Nat × Except TransportError (List Queue.Delivery)}
    (h : result ∈ (x.settle name r).results) : result ∈ x.results ∨ result.1 = name := by
  obtain ⟨q, state | poll⟩ := r
  · rcases List.mem_append.1 h with h | h
    · exact .inl h
    · obtain rfl := List.mem_singleton.1 h
      exact .inr rfl
  · exact .inl h

theorem names_settle (r : Queue × PollState) : (x.settle name r).names = x.names := by
  obtain ⟨q, state⟩ := r
  cases state <;> rfl

/-- A look is nothing if the receive does not wait, and else settles it anew. -/
theorem look_cases (x : Exchange) (name : Nat) :
    ((∀ w ∈ x.waiters, w.name ≠ name) ∧ x.look name = x) ∨
      ∃ w ∈ x.waiters, w.name = name ∧ x.waiters.find? (·.name = name) = some w ∧
        x.look name = { x with waiters := x.waiters.filter (·.name != name) }.settle name
          (x.queue.poll x.now w.poll.max w.poll.deadline) := by
  unfold Exchange.look
  cases hfind : x.waiters.find? (·.name = name) with
  | none =>
      have hnone := List.find?_eq_none.1 hfind
      exact .inl ⟨fun w hw => of_decide_eq_false (Bool.eq_false_iff.2 (hnone w hw)), rfl⟩
  | some w =>
      have hfound := List.find?_some hfind
      exact .inr ⟨w, List.mem_of_find?_eq_some hfind, of_decide_eq_true hfound, rfl, rfl⟩

theorem now_look (x : Exchange) (name : Nat) : (x.look name).now = x.now := by
  rcases look_cases x name with ⟨-, hlook⟩ | ⟨w, -, -, -, hlook⟩
  · rw [hlook]
  · rw [hlook, now_settle]

/-- Whoever waits after a look has not looked, or waits for a later instant. -/
theorem mem_waiters_look {w : Waiter} (h : w ∈ (x.look name).waiters) :
    (w ∈ x.waiters ∧ w.name ≠ name) ∨
      w.name = name ∧ x.now < w.poll.lookAt ∧ w.poll.lookAt ≤ w.poll.deadline := by
  rcases look_cases x name with ⟨hnone, hlook⟩ | ⟨w₀, -, -, -, hlook⟩
  · rw [hlook] at h
    exact .inl ⟨h, hnone w h⟩
  · rw [hlook] at h
    rcases mem_waiters_settle h with h | ⟨hname, hstate⟩
    · obtain ⟨hw, hne⟩ := List.mem_filter.1 h
      exact .inl ⟨hw, by simpa using hne⟩
    · obtain ⟨-, -, -, hdeadline, hlater, hle⟩ := Queue.poll_waiting hstate
      exact .inr ⟨hname, hlater, by rwa [hdeadline]⟩

/-- The next look is the earliest. -/
theorem nextLook_some {instant : Nat} (h : x.nextLook = some instant) :
    (∃ w ∈ x.waiters, w.poll.lookAt = instant) ∧ ∀ w ∈ x.waiters, instant ≤ w.poll.lookAt := by
  obtain ⟨hmem, hle⟩ := List.min?_eq_some_iff.1 h
  exact ⟨List.mem_map.1 hmem, fun w hw => hle _ (List.mem_map_of_mem hw)⟩

theorem nextLook_none (h : x.nextLook = none) : x.waiters = [] :=
  List.map_eq_nil_iff.1 (List.min?_eq_none_iff.1 h)

end Waiters

/-! ## Staying on time -/

namespace OnTime

variable {x x' : Exchange} {name : Nat}

theorem empty (visibility : Nat) : (empty visibility).OnTime :=
  ⟨nofun, nofun, nofun, nofun⟩

theorem settle (h : x.OnTime) (hname : name < x.names) {r : Queue × PollState}
    (hr : ∀ poll, r.2 = .waiting poll → x.now < poll.lookAt ∧ poll.lookAt ≤ poll.deadline) :
    (x.settle name r).OnTime := by
  constructor
  · intro w hw
    rw [now_settle]
    rcases mem_waiters_settle hw with hw | ⟨-, hstate⟩
    · exact h.due w hw
    · exact Nat.le_of_lt (hr _ hstate).1
  · intro w hw
    rcases mem_waiters_settle hw with hw | ⟨-, hstate⟩
    · exact h.bounded w hw
    · exact (hr _ hstate).2
  · intro w hw
    rw [names_settle]
    rcases mem_waiters_settle hw with hw | ⟨rfl, -⟩
    · exact h.waiting w hw
    · exact hname
  · intro r hr
    rw [names_settle]
    rcases mem_results_settle hr with hr | rfl
    · exact h.ended r hr
    · exact hname

/-- It matters only who waits, and until when. -/
theorem of_subset (h : x.OnTime) (hnow : x'.now = x.now) (hnames : x.names ≤ x'.names)
    (hwaiters : ∀ w ∈ x'.waiters, ∃ w' ∈ x.waiters, w'.name = w.name ∧ w'.poll = w.poll)
    (hresults : x'.results = x.results) : x'.OnTime := by
  constructor
  · intro w hw
    obtain ⟨w', hw', -, hpoll⟩ := hwaiters w hw
    rw [hnow, ← hpoll]
    exact h.due w' hw'
  · intro w hw
    obtain ⟨w', hw', -, hpoll⟩ := hwaiters w hw
    rw [← hpoll]
    exact h.bounded w' hw'
  · intro w hw
    obtain ⟨w', hw', hname, -⟩ := hwaiters w hw
    rw [← hname]
    exact Nat.lt_of_lt_of_le (h.waiting w' hw') hnames
  · intro r hr
    rw [hresults] at hr
    exact Nat.lt_of_lt_of_le (h.ended r hr) hnames

theorem filter (h : x.OnTime) (keep : Waiter → Bool) :
    OnTime { x with waiters := x.waiters.filter keep } :=
  h.of_subset rfl (Nat.le_refl _) (fun w hw => ⟨w, (List.mem_filter.1 hw).1, rfl, rfl⟩) rfl

/-- Neither the queue nor the line matters. -/
theorem with_queue (h : x.OnTime) (q : Queue) : OnTime { x with queue := q } :=
  ⟨h.due, h.bounded, h.waiting, h.ended⟩

theorem with_turns (h : x.OnTime) (names : List Nat) : OnTime { x with turns := names } :=
  ⟨h.due, h.bounded, h.waiting, h.ended⟩

theorem look (h : x.OnTime) (name : Nat) : (x.look name).OnTime := by
  rcases look_cases x name with ⟨-, hlook⟩ | ⟨w, hw, hname, -, hlook⟩
  · rwa [hlook]
  · rw [hlook]
    refine (h.filter _).settle (hname ▸ h.waiting w hw) fun poll hpoll => ?_
    obtain ⟨-, -, -, hdeadline, hlater, hle⟩ := Queue.poll_waiting hpoll
    exact ⟨hlater, by rwa [hdeadline]⟩

theorem begin (h : x.OnTime) (max wait : Nat) :
    ({ x with names := x.names + 1 }.settle x.names (x.queue.receive x.now max wait)).OnTime := by
  have hnamed : OnTime { x with names := x.names + 1 } :=
    h.of_subset rfl (Nat.le_succ _) (fun w hw => ⟨w, hw, rfl, rfl⟩) rfl
  exact hnamed.settle (Nat.lt_succ_self _) fun poll hpoll => Queue.receive_waiting hpoll

theorem ring (h : x.OnTime) {instant : Nat} (hle : ∀ w ∈ x.waiters, instant ≤ w.poll.lookAt) :
    (x.ring instant).OnTime :=
  ⟨fun w hw => Nat.max_le.2 ⟨h.due w hw, hle w hw⟩, h.bounded, h.waiting, h.ended⟩

/-- An exchange stays on time, whatever happens, if the clock is not pushed past a look. -/
theorem move {deeds : List Deed} (h : x.OnTime) (hmove : Move x deeds x') (htime : Timely x x') :
    x'.OnTime := by
  cases hmove with
  | send body =>
      unfold Exchange.send
      split
      · exact (h.with_queue _).of_subset (now_announce _) (Nat.le_of_eq (names_announce _).symm)
          (fun w hw => mem_waiters_announce hw) (results_announce _)
      · exact h.with_queue _
  | begin max wait => exact h.begin max wait
  | look name => exact h.look name
  | drop name => exact h.filter _
  | beginAside max wait => exact h.with_queue _
  | lookAside max deadline => exact h.with_queue _
  | delete token => exact h.with_queue _
  | pass instant =>
      by_cases hnow : (x.ring instant).now = x.now
      · exact h.of_subset hnow (Nat.le_refl _) (fun w hw => ⟨w, hw, rfl, rfl⟩) rfl
      · exact h.ring fun w hw => Nat.le_trans (Nat.le_max_right ..) (htime hnow w hw)
  | fail faults => exact h.with_queue _
  | reorder leases hperm => exact h.with_queue _
  | reline names => exact h.with_turns names

end OnTime

/-! ## From look to look -/

/-- Whoever looks at this instant has its turn before the instant is left. -/
def Lined (x : Exchange) : Prop := ∀ w ∈ x.waiters, w.poll.lookAt = x.now → w.name ∈ x.turns

theorem lined_ring {x : Exchange} {instant : Nat} (h : x.now ≤ instant) :
    (x.ring instant).Lined := by
  intro w hw hlook
  have hnow : (x.ring instant).now = instant := Nat.max_eq_right h
  have hdue : w.name ∈ (x.waiters.filter fun w => w.poll.lookAt ≤ instant).map Waiter.name := by
    refine List.mem_map_of_mem (List.mem_filter.2 ⟨hw, ?_⟩)
    exact decide_eq_true (Nat.le_of_eq (hlook.trans hnow))
  show w.name ∈ x.turns ++ _
  by_cases hturn : w.name ∈ x.turns
  · exact List.mem_append_left _ hturn
  · refine List.mem_append_right _ (List.mem_filter.2 ⟨hdue, ?_⟩)
    simpa using hturn

theorem now_foldl_look (names : List Nat) (x : Exchange) :
    (names.foldl Exchange.look x).now = x.now := by
  induction names generalizing x with
  | nil => rfl
  | cons name names ih => rw [List.foldl_cons, ih, now_look]

theorem now_runTurns (x : Exchange) : x.runTurns.now = x.now :=
  now_foldl_look x.turns _

theorem OnTime.foldl_look {x : Exchange} (h : x.OnTime) (names : List Nat) :
    (names.foldl Exchange.look x).OnTime := by
  induction names generalizing x with
  | nil => exact h
  | cons name names ih => exact ih (h.look name)

theorem OnTime.runTurns {x : Exchange} (h : x.OnTime) : x.runTurns.OnTime :=
  (h.with_turns []).foldl_look x.turns

/-- Whoever still waits once those in line have looked waits for a later instant. -/
private theorem later_foldl {x : Exchange} (h : x.OnTime) {names : List Nat}
    (hlined : ∀ w ∈ x.waiters, w.poll.lookAt = x.now → w.name ∈ names) :
    ∀ w ∈ (names.foldl Exchange.look x).waiters, x.now < w.poll.lookAt := by
  induction names generalizing x with
  | nil =>
      intro w hw
      have hdue := h.due w hw
      have hne : w.poll.lookAt ≠ x.now := fun hlook => nomatch hlined w hw hlook
      omega
  | cons name names ih =>
      rw [List.foldl_cons, ← now_look x name]
      refine ih (h.look name) fun w hw hlook => ?_
      rw [now_look] at hlook
      rcases mem_waiters_look hw with ⟨hw, hne⟩ | ⟨-, hlater, -⟩
      · exact (List.mem_cons.1 (hlined w hw hlook)).resolve_left hne
      · omega

theorem OnTime.later {x : Exchange} (h : x.OnTime) (hlined : x.Lined) :
    ∀ w ∈ x.runTurns.waiters, x.now < w.poll.lookAt :=
  later_foldl (h.with_turns []) hlined

/-! ## What is kept while time passes -/

/-- A property that looks and the passing of time keep. -/
structure Closed (P : Exchange → Prop) : Prop where
  reline : ∀ {x}, P x → ∀ names, P { x with turns := names }
  look : ∀ {x}, P x → ∀ name, P (x.look name)
  ring : ∀ {x}, P x → ∀ {instant}, (∀ w ∈ x.waiters, instant ≤ w.poll.lookAt) →
    P (x.ring instant)

theorem closed_onTime : Closed OnTime :=
  ⟨fun h => h.with_turns, fun h => h.look, fun h _ => h.ring⟩

namespace Closed

variable {P : Exchange → Prop} {x : Exchange}

theorem runTurns (hP : Closed P) (h : P x) : P x.runTurns := by
  have hlooks : ∀ (names : List Nat) {y : Exchange}, P y → P (names.foldl Exchange.look y) := by
    intro names
    induction names with
    | nil => exact fun h => h
    | cons name names ih => exact fun h => ih (hP.look h name)
  exact hlooks x.turns (hP.reline h [])

/-- What is kept while a receive is waited for. -/
theorem await (hP : Closed P) (h : P x) (fuel name : Nat) : P (await fuel name x) := by
  induction fuel generalizing x with
  | zero => exact h
  | succ fuel ih =>
      unfold Exchange.await
      split
      · exact h
      · simp only
        split
        · next instant hnext =>
            split at hnext
            · cases hnext
            · exact ih (hP.ring (hP.runTurns h) (nextLook_some hnext).2)
        · exact hP.runTurns h

/-- Once those who are due have their turns, a round for each instant brings the clock to the
target. -/
private theorem advanceTo_lined (hP : Closed P) (h : P x) (hx : x.OnTime) (hlined : x.Lined)
    {fuel target : Nat} (hle : x.now ≤ target) (hfuel : target ≤ x.now + fuel) :
    P (advanceTo fuel target x) ∧ (advanceTo fuel target x).OnTime ∧
      (advanceTo fuel target x).now = target := by
  have hring : ∀ {y : Exchange}, P y → y.OnTime → y.now ≤ target →
      (∀ w ∈ y.waiters, target ≤ w.poll.lookAt) →
        P (y.ring target) ∧ (y.ring target).OnTime ∧ (y.ring target).now = target :=
    fun hy hy' hle hdue => ⟨hP.ring hy hdue, hy'.ring hdue, Nat.max_eq_right hle⟩
  induction fuel generalizing x with
  | zero => exact hring h hx hle fun w hw => Nat.le_trans hfuel (hx.due w hw)
  | succ fuel ih =>
      have hturns := hP.runTurns h
      have hturns' := hx.runTurns
      have hnow := now_runTurns x
      unfold advanceTo
      simp only
      split
      · next instant hnext =>
          obtain ⟨⟨w, hw, hlook⟩, hfirst⟩ := nextLook_some hnext
          have hlater : x.now < instant := hlook ▸ hx.later hlined w hw
          have hrung : (x.runTurns.ring instant).now = instant :=
            Nat.max_eq_right (by omega)
          split
          · exact ih (hP.ring hturns hfirst) (hturns'.ring hfirst) (lined_ring (by omega))
              (by omega) (by omega)
          · next hpast =>
              exact hring hturns hturns' (by omega) fun w hw =>
                Nat.le_trans (Nat.not_lt.1 hpast) (hfirst w hw)
      · next hnone =>
          refine hring hturns hturns' (by omega) ?_
          rw [nextLook_none hnone]
          exact nofun

/-- A round more is enough if not all of those who are due have their turns. -/
theorem advanceTo (hP : Closed P) (h : P x) (hx : x.OnTime) {fuel target : Nat}
    (hle : x.now ≤ target) (hfuel : target < x.now + fuel) :
    P (advanceTo fuel target x) ∧ (advanceTo fuel target x).OnTime ∧
      (Exchange.advanceTo fuel target x).now = target := by
  obtain ⟨fuel, rfl⟩ := Nat.exists_eq_succ_of_ne_zero (by omega : fuel ≠ 0)
  have hturns := hP.runTurns h
  have hturns' := hx.runTurns
  have hnow := now_runTurns x
  have hring : (∀ w ∈ x.runTurns.waiters, target ≤ w.poll.lookAt) →
      P (x.runTurns.ring target) ∧ (x.runTurns.ring target).OnTime ∧
        (x.runTurns.ring target).now = target :=
    fun hdue => ⟨hP.ring hturns hdue, hturns'.ring hdue, Nat.max_eq_right (by omega)⟩
  unfold Exchange.advanceTo
  simp only
  split
  · next instant hnext =>
      obtain ⟨⟨w, hw, hlook⟩, hfirst⟩ := nextLook_some hnext
      have hdue := hturns'.due w hw
      have hrung : (x.runTurns.ring instant).now = instant := Nat.max_eq_right (by omega)
      split
      · exact hP.advanceTo_lined (hP.ring hturns hfirst) (hturns'.ring hfirst)
          (lined_ring (by omega)) (by omega) (by omega)
      · next hpast =>
          exact hring fun w hw => Nat.le_trans (Nat.not_lt.1 hpast) (hfirst w hw)
  · next hnone =>
      refine hring ?_
      rw [nextLook_none hnone]
      exact nofun

/-- What is kept while a span of time passes. -/
theorem advance (hP : Closed P) (h : P x) (hx : x.OnTime) (span : Nat) :
    P (x.advance span) ∧ (x.advance span).now = x.now + span := by
  unfold Exchange.advance
  split
  · next hspan => exact ⟨h, by rw [hspan]; rfl⟩
  · obtain ⟨hP', -, hnow⟩ := hP.advanceTo h hx (Nat.le_add_right x.now span)
      (by omega : x.now + span < x.now + (span + 1))
    exact ⟨hP', hnow⟩

end Closed

end Exchange

end ProductCatalog
