import ProductCatalog.Proofs.Queue.Timing
import ProductCatalog.Proofs.Queue.Tokens

/-!
# Receives that wait end in time

A receive looks at once and then, as long as it finds nothing, at instants
that are never later than the one it waits for.  What happens to the queue
between two looks, and why a look comes early, does not matter: each look
either ends the receive with what it finds, or finds nothing before the
deadline and leaves less time until it.  So the receive ends at its deadline
at the latest, with the first messages that any of its looks has found, and
without messages only if the look at the deadline has found none.

This is shown of looks at queues that are arbitrary, and then carried to the
two receives of an exchange: the one in the background, whose looks are
mixed with whatever else happens, and the one in the foreground.

## Main definitions

* `Queue.Polls` — looks of one receive, and what has become of it.
* `Queue.Received` — how a receive has ended.
* `Exchange.Awaits` — what an exchange comes to after a receive has begun.

## Main results

* `Queue.Polls.received` — how every receive ends.
* `Exchange.Awaits.finish` — an exchange by itself lets a waiting receive end.
* `Exchange.receives_end_in_time` — the receives of an exchange.
-/

namespace ProductCatalog

open Queue (Delivery Lease Message Poll PollState)

/-! ## Looks at any queues -/

namespace Queue

/-- The messages that a look finds: those in line, and behind them those of expired leases. -/
def available (q : Queue) (now : Nat) : List Message :=
  q.visible ++ (q.leased.filter (Lease.expired now)).map (·.delivery.message)

theorem available_eq_nil_iff {q : Queue} {now : Nat} :
    q.available now = [] ↔ q.visible = [] ∧ ∀ lease ∈ q.leased, now < lease.visibleAt := by
  simp [available, Lease.expired]

theorem look_eq_nil_iff {q : Queue} {now max : Nat} (hmax : 0 < max) :
    (q.look now max).2 = [] ↔ q.available now = [] := by
  have htaken : (q.look now max).2.map Delivery.message = (q.available now).take max :=
    map_message_look q now max
  rw [← List.map_eq_nil_iff, htaken, List.take_eq_nil_iff]
  exact or_iff_right (by omega)

/-- What a look leaves for the next one at its instant. -/
theorem available_look {q : Queue} (hvisibility : 0 < q.visibility) (now max : Nat) :
    (q.look now max).1.available now = (q.available now).drop max := by
  have hrunning : (q.look now max).1.leased.filter (Lease.expired now) = [] := by
    refine List.filter_eq_nil_iff.2 fun lease hl => ?_
    have hlater : now < lease.visibleAt := by
      rcases mem_leased_look_iff.1 hl with ⟨-, hlater⟩ | ⟨-, hnew⟩
      · exact hlater
      · omega
    simpa [Lease.expired] using hlater
  rw [available, hrunning]
  exact List.append_nil _

theorem length_look (q : Queue) (now max : Nat) :
    (q.look now max).2.length = min max (q.available now).length := by
  have htaken : (q.look now max).2.map Delivery.message = (q.available now).take max :=
    map_message_look q now max
  rw [← List.length_map (f := Delivery.message), htaken, List.length_take]

/-- A deletion makes nothing available. -/
theorem length_available_delete_le (q : Queue) (token : String) (now : Nat) :
    ((q.delete token).1.available now).length ≤ (q.available now).length := by
  rcases q.delete_cases token with ⟨_, -, -, hdelete⟩ | ⟨faults, error, hdelete⟩
  · rw [hdelete]
    simp only [available, List.length_append, List.length_map]
    exact Nat.add_le_add_left (List.filter_sublist.filter _).length_le _
  · rw [hdelete]
    exact Nat.le_refl _

/-- A look that ends a receive has found something, or is at the deadline. -/
theorem poll_finished {q : Queue} {now max deadline : Nat}
    {result : Except TransportError (List Delivery)}
    (h : (q.poll now max deadline).2 = .finished result) :
    result = .ok (q.look now max).2 ∧ ((q.look now max).2 ≠ [] ∨ deadline ≤ now) := by
  unfold Queue.poll at h
  simp only at h
  split at h
  · next hended =>
      obtain rfl := PollState.finished.inj h
      refine ⟨rfl, ?_⟩
      simpa [List.isEmpty_eq_false_iff] using hended
  · cases h

/--
The looks of a receive, each with its instant and the queue that it has
looked at, and what has become of the receive.  Whatever may have happened to
the queue before another look, this is not later than the receive waits for.
-/
inductive Polls (began max deadline : Nat) : List (Nat × Queue) → PollState → Prop
  | first (q : Queue) : Polls began max deadline [(began, q)] (q.poll began max deadline).2
  | next {looks : List (Nat × Queue)} {poll : Poll} {now : Nat}
      (h : Polls began max deadline looks (.waiting poll)) (q : Queue)
      (hle : ∀ look ∈ looks, look.1 ≤ now) (hnow : now ≤ poll.lookAt) :
      Polls began max deadline (looks ++ [(now, q)]) (q.poll now max deadline).2

/-- How a receive has ended, by its looks. -/
structure Received (began max deadline : Nat) (looks : List (Nat × Queue))
    (batch : List Delivery) : Prop where
  inTime : ∀ look ∈ looks, began ≤ look.1 ∧ look.1 ≤ deadline
  /-- All looks but the last have found nothing. -/
  earlier : ∀ look ∈ looks.dropLast, look.2.available look.1 = []
  /-- The last has taken the first messages that were there. -/
  taken : ∃ now q, looks.getLast? = some (now, q) ∧
    batch.map Delivery.message = (q.available now).take max
  atMost : batch.length ≤ max
  /-- If it has taken none, this was at the deadline, and none was there. -/
  emptyHanded : batch = [] → ∃ q, looks.getLast? = some (deadline, q) ∧ q.visible = [] ∧
    ∀ lease ∈ q.leased, deadline < lease.visibleAt

namespace Polls

variable {began max deadline : Nat} {looks : List (Nat × Queue)} {poll : Poll}

/-- The first look is at the beginning. -/
theorem began_mem {state : PollState} (h : Polls began max deadline looks state) :
    ∃ q, (began, q) ∈ looks := by
  induction h with
  | first q => exact ⟨q, List.mem_singleton_self _⟩
  | next _ _ _ _ ih =>
      obtain ⟨q, hq⟩ := ih
      exact ⟨q, List.mem_append_left _ hq⟩

/-- A receive that waits has found nothing, and waits for an instant before or at its deadline. -/
theorem waiting (hmax : 0 < max) (h : Polls began max deadline looks (.waiting poll)) :
    (poll.max = max ∧ poll.deadline = deadline) ∧ poll.lookAt ≤ deadline ∧
      ∀ look ∈ looks, look.2.available look.1 = [] ∧ began ≤ look.1 ∧ look.1 < poll.lookAt := by
  generalize hstate : PollState.waiting poll = state at h
  induction h generalizing poll with
  | first q =>
      obtain ⟨hnone, hearly, hpoll, hdeadline, hlater, hle⟩ := poll_waiting hstate.symm
      refine ⟨⟨hpoll, hdeadline⟩, hle, fun look hlook => ?_⟩
      obtain rfl := List.mem_singleton.1 hlook
      exact ⟨(look_eq_nil_iff hmax).1 hnone, Nat.le_refl _, hlater⟩
  | @next looks before now hlooks q hle hnow ih =>
      obtain ⟨hnone, hearly, hpoll, hdeadline, hlater, hbound⟩ := poll_waiting hstate.symm
      obtain ⟨-, -, hbefore⟩ := ih rfl
      refine ⟨⟨hpoll, hdeadline⟩, hbound, fun look hlook => ?_⟩
      rcases List.mem_append.1 hlook with hlook | hlook
      · obtain ⟨hnothing, hbegan, -⟩ := hbefore look hlook
        exact ⟨hnothing, hbegan, Nat.lt_of_le_of_lt (hle look hlook) hlater⟩
      · obtain rfl := List.mem_singleton.1 hlook
        obtain ⟨_, hfirst⟩ := hlooks.began_mem
        exact ⟨(look_eq_nil_iff hmax).1 hnone, hle _ hfirst, hlater⟩

/-- How every receive ends. -/
theorem received (hmax : 0 < max) (hwait : began ≤ deadline)
    {result : Except TransportError (List Delivery)}
    (h : Polls began max deadline looks (.finished result)) :
    ∃ batch, result = .ok batch ∧ Received began max deadline looks batch := by
  have hend : ∀ (init : List (Nat × Queue)) {now : Nat} {q : Queue},
      (q.poll now max deadline).2 = .finished result → began ≤ now → now ≤ deadline →
      (∀ look ∈ init, look.2.available look.1 = [] ∧ began ≤ look.1 ∧ look.1 ≤ deadline) →
        ∃ batch, result = .ok batch ∧
          Received began max deadline (init ++ [(now, q)]) batch := by
    intro init now q hpoll hbegan hnow hinit
    obtain ⟨rfl, hfound⟩ := poll_finished hpoll
    refine ⟨_, rfl, ?_, ?_, ?_, length_look_le .., ?_⟩
    · intro look hlook
      rcases List.mem_append.1 hlook with hlook | hlook
      · exact (hinit look hlook).2
      · obtain rfl := List.mem_singleton.1 hlook
        exact ⟨hbegan, hnow⟩
    · rw [List.dropLast_concat]
      exact fun look hlook => (hinit look hlook).1
    · exact ⟨now, q, List.getLast?_concat .., map_message_look q now max⟩
    · intro hempty
      have hdeadline : now = deadline :=
        Nat.le_antisymm hnow (hfound.resolve_left (not_not_intro hempty))
      have hnothing := available_eq_nil_iff.1 ((look_eq_nil_iff hmax).1 hempty)
      rw [hdeadline] at hnothing ⊢
      exact ⟨q, List.getLast?_concat .., hnothing⟩
  generalize hstate : PollState.finished result = state at h
  cases h with
  | first q => exact hend [] hstate.symm (Nat.le_refl _) hwait nofun
  | next hlooks q hle hnow =>
      obtain ⟨-, hbound, hbefore⟩ := hlooks.waiting hmax
      obtain ⟨_, hfirst⟩ := hlooks.began_mem
      refine hend _ hstate.symm (hle _ hfirst) (Nat.le_trans hnow hbound) fun look hlook => ?_
      obtain ⟨hnothing, hbegan, hearly⟩ := hbefore look hlook
      exact ⟨hnothing, hbegan, Nat.le_of_lt (Nat.lt_of_lt_of_le hearly hbound)⟩

end Polls

end Queue

namespace Exchange

/-! ## Receives in the background -/

/--
What can happen at an exchange while a receive waits, besides its own looks:
a send, another receive, whatever is done to the queue, and time passing up
to the next look.
-/
inductive Meanwhile (name : Nat) (x : Exchange) : Exchange → Prop
  | send (body : Text.Bytes) : Meanwhile name x (x.send body).1
  | begin (max wait : Nat) : Meanwhile name x
      ({ x with names := x.names + 1 }.settle x.names (x.queue.receive x.now max wait))
  | look (other : Nat) (h : other ≠ name) : Meanwhile name x (x.look other)
  | drop (other : Nat) (h : other ≠ name) : Meanwhile name x (x.drop other)
  | queue (q : Queue) : Meanwhile name x { x with queue := q }
  | pass (instant : Nat) (h : ∀ w ∈ x.waiters, instant ≤ w.poll.lookAt) :
      Meanwhile name x (x.ring instant)
  | reline (names : List Nat) : Meanwhile name x { x with turns := names }

/-- What an exchange can come to once a receive has begun at it, with the receive's looks. -/
inductive Awaits (x : Exchange) (max wait : Nat) : List (Nat × Queue) → Exchange → Prop
  | begun : Awaits x max wait [(x.now, x.queue.beginReceive.1)]
      ({ x with names := x.names + 1 }.settle x.names (x.queue.receive x.now max wait))
  /-- The receive looks, whatever has woken it. -/
  | look {looks : List (Nat × Queue)} {x' : Exchange} (h : Awaits x max wait looks x')
      (hwaits : x'.resultOf? x.names = none) :
      Awaits x max wait (looks ++ [(x'.now, x'.queue)]) (x'.look x.names)
  | meanwhile {looks : List (Nat × Queue)} {x' x'' : Exchange} (h : Awaits x max wait looks x')
      (hmove : Meanwhile x.names x' x'') : Awaits x max wait looks x''

/-- The polls of a name, of which there is at most one. -/
def polls (x : Exchange) (name : Nat) : List Poll :=
  (x.waiters.filter (·.name = name)).map (·.poll)

/-- Where a receive stands. -/
def Stands (x : Exchange) (name : Nat) : PollState → Prop
  | .waiting poll => x.polls name = [poll] ∧ x.resultOf? name = none
  | .finished result => x.polls name = [] ∧ x.resultOf? name = some result

section Standing

variable {x x' : Exchange} {name : Nat} {state : PollState}

/-- Only its poll and its result matter to a receive. -/
theorem Stands.congr (h : x.Stands name state) (hpolls : x'.polls name = x.polls name)
    (hresult : x'.resultOf? name = x.resultOf? name) : x'.Stands name state := by
  cases state <;> exact ⟨hpolls.trans h.1, hresult.trans h.2⟩

/-- A receive that is new, or has been taken out to look, stands as it has been settled. -/
theorem stands_settle (hpolls : x.polls name = []) (hresult : x.resultOf? name = none)
    (r : Queue × PollState) : (x.settle name r).Stands name r.2 := by
  obtain ⟨q, result | poll⟩ := r
  · refine ⟨hpolls, ?_⟩
    have hnone : x.results.find? (·.1 = name) = none := Option.map_eq_none_iff.1 hresult
    simp [settle, resultOf?, hnone]
  · refine ⟨?_, hresult⟩
    rw [polls, List.map_eq_nil_iff] at hpolls
    simp [settle, polls, hpolls]

theorem polls_settle {other : Nat} (h : other ≠ name) (r : Queue × PollState) :
    (x.settle other r).polls name = x.polls name := by
  obtain ⟨q, result | poll⟩ := r
  · rfl
  · simp [settle, polls, h]

theorem resultOf?_settle {other : Nat} (h : other ≠ name) (r : Queue × PollState) :
    (x.settle other r).resultOf? name = x.resultOf? name := by
  obtain ⟨q, result | poll⟩ := r
  · simp [settle, resultOf?, h]
  · rfl

theorem polls_drop {other : Nat} (h : other ≠ name) : (x.drop other).polls name = x.polls name := by
  rw [polls, polls, drop, List.filter_filter]
  congr 1
  refine List.filter_congr fun w _ => ?_
  by_cases hw : w.name = name
  · simp [hw, Ne.symm h]
  · simp [hw]

theorem polls_announce : x.announce.polls name = x.polls name := by
  unfold announce
  split
  · rfl
  · next first _ =>
      have hname : ∀ w : Waiter,
          (if w.name = first.name then { w with woken := true } else w).name = w.name := by
        intro w
        split <;> rfl
      have hpoll : ∀ w : Waiter,
          (if w.name = first.name then { w with woken := true } else w).poll = w.poll := by
        intro w
        split <;> rfl
      simp only [polls, line, List.filter_map, List.map_map, Function.comp_def, hname, hpoll]

theorem resultOf?_announce : x.announce.resultOf? name = x.resultOf? name := by
  rw [resultOf?, results_announce, resultOf?]

/-- What happens meanwhile does not concern the receive. -/
theorem Meanwhile.stands (hmove : Meanwhile name x x') (hname : name < x.names)
    (h : x.Stands name state) : x'.Stands name state := by
  cases hmove with
  | send body =>
      unfold Exchange.send
      split
      · exact h.congr polls_announce resultOf?_announce
      · exact h.congr rfl rfl
  | begin max wait =>
      have hne : x.names ≠ name := Nat.ne_of_gt hname
      exact h.congr (polls_settle hne _) (resultOf?_settle hne _)
  | look other hother =>
      rcases look_cases x other with ⟨-, hlook⟩ | ⟨w, -, -, -, hlook⟩
      · rwa [hlook]
      · rw [hlook]
        exact h.congr ((polls_settle hother _).trans (polls_drop hother))
          (resultOf?_settle hother _)
  | drop other hother => exact h.congr (polls_drop hother) rfl
  | queue q => exact h.congr rfl rfl
  | pass instant _ => exact h.congr rfl rfl
  | reline names => exact h.congr rfl rfl

theorem Meanwhile.onTime (hmove : Meanwhile name x x') (h : x.OnTime) :
    x'.OnTime ∧ x.now ≤ x'.now ∧ x.names ≤ x'.names := by
  cases hmove with
  | send body =>
      have hnames : (x.send body).1.names = x.names := by
        unfold Exchange.send
        split
        · exact names_announce _
        · rfl
      have hnow := now_send x body
      exact ⟨h.move (.send body) fun hne => absurd hnow hne, Nat.le_of_eq hnow.symm,
        Nat.le_of_eq hnames.symm⟩
  | begin max wait =>
      refine ⟨h.begin max wait, ?_, ?_⟩
      · simp only [now_settle, Nat.le_refl]
      · rw [names_settle]
        exact Nat.le_succ _
  | look other =>
      have hnames : (x.look other).names = x.names := by
        rcases look_cases x other with ⟨-, hlook⟩ | ⟨w, -, -, -, hlook⟩
        · rw [hlook]
        · rw [hlook, names_settle]
      exact ⟨h.look other, Nat.le_of_eq (now_look x other).symm, Nat.le_of_eq hnames.symm⟩
  | drop other => exact ⟨h.filter _, Nat.le_refl _, Nat.le_refl _⟩
  | queue q => exact ⟨h.with_queue q, Nat.le_refl _, Nat.le_refl _⟩
  | pass instant hle => exact ⟨h.ring hle, Nat.le_max_left .., Nat.le_refl _⟩
  | reline names => exact ⟨h.with_turns names, Nat.le_refl _, Nat.le_refl _⟩

/-- A look of a waiting receive settles it anew. -/
theorem Stands.look {poll : Poll} (h : x.Stands name (.waiting poll)) :
    (x.look name).Stands name (x.queue.poll x.now poll.max poll.deadline).2 := by
  obtain ⟨hpolls, hresult⟩ := h
  rcases look_cases x name with ⟨hnone, -⟩ | ⟨w, hw, hname, -, hlook⟩
  · have hempty : x.polls name = [] := by
      rw [polls, List.map_eq_nil_iff, List.filter_eq_nil_iff]
      exact fun w hw => by simpa using hnone w hw
    rw [hpolls] at hempty
    cases hempty
  · have hpoll : w.poll = poll := by
      have hmem : w.poll ∈ x.polls name :=
        List.mem_map_of_mem (List.mem_filter.2 ⟨hw, decide_eq_true hname⟩)
      rw [hpolls] at hmem
      exact List.mem_singleton.1 hmem
    have htaken : Exchange.polls { x with waiters := x.waiters.filter (·.name != name) } name =
        [] := by
      rw [polls, List.map_eq_nil_iff, List.filter_filter, List.filter_eq_nil_iff]
      intro w _
      simp
    rw [hlook, ← hpoll]
    exact stands_settle htaken hresult _

end Standing

namespace Awaits

variable {x x' : Exchange} {max wait : Nat} {looks : List (Nat × Queue)}

/-- A receive stands as its looks have left it, and the exchange is on time. -/
theorem stands (hx : x.OnTime) (hmax : 0 < max) (hfaults : x.queue.faults.receives = 0)
    (h : Awaits x max wait looks x') :
    (∃ state, Queue.Polls x.now max (x.now + wait) looks state ∧ x'.Stands x.names state) ∧
      x'.OnTime ∧ x.names < x'.names ∧ ∀ look ∈ looks, look.1 ≤ x'.now := by
  induction h with
  | begun =>
      have hreceive : x.queue.receive x.now max wait =
          x.queue.beginReceive.1.poll x.now max (x.now + wait) := by
        simp [Queue.receive, Queue.beginReceive, hfaults]
      have hpolls : Exchange.polls { x with names := x.names + 1 } x.names = [] := by
        rw [polls, List.map_eq_nil_iff, List.filter_eq_nil_iff]
        intro w hw
        have := hx.waiting w hw
        simpa using Nat.ne_of_lt this
      have hresult : resultOf? { x with names := x.names + 1 } x.names = none := by
        rw [resultOf?, Option.map_eq_none_iff, List.find?_eq_none]
        intro r hr
        have := hx.ended r hr
        simpa using Nat.ne_of_lt this
      refine ⟨⟨_, .first x.queue.beginReceive.1, ?_⟩, hx.begin max wait, ?_, ?_⟩
      · rw [hreceive]
        exact stands_settle hpolls hresult _
      · rw [names_settle]
        exact Nat.lt_succ_self _
      · intro look hlook
        obtain rfl := List.mem_singleton.1 hlook
        simp only [now_settle, Nat.le_refl]
  | @look looks x' _ hwaits ih =>
      obtain ⟨⟨state, hpolls, hstands⟩, honTime, hnames, hlooks⟩ := ih
      cases state with
      | finished result =>
          rw [hstands.2] at hwaits
          cases hwaits
      | waiting poll =>
          obtain ⟨⟨hpollMax, hpollDeadline⟩, -, -⟩ := hpolls.waiting hmax
          have hnow : x'.now ≤ poll.lookAt := by
            have hmem : poll ∈ x'.polls x.names := by
              rw [hstands.1]
              exact List.mem_singleton_self _
            obtain ⟨w, hw, rfl⟩ := List.mem_map.1 hmem
            exact honTime.due w (List.mem_filter.1 hw).1
          have hlook := hstands.look
          rw [hpollMax, hpollDeadline] at hlook
          have hnames' : (x'.look x.names).names = x'.names := by
            rcases look_cases x' x.names with ⟨-, hlook⟩ | ⟨w, -, -, -, hlook⟩
            · rw [hlook]
            · rw [hlook, names_settle]
          refine ⟨⟨_, hpolls.next x'.queue hlooks hnow, hlook⟩, honTime.look _, ?_, ?_⟩
          · rwa [hnames']
          · intro look hlook
            rw [now_look]
            rcases List.mem_append.1 hlook with hlook | hlook
            · exact hlooks look hlook
            · obtain rfl := List.mem_singleton.1 hlook
              exact Nat.le_refl _
  | @meanwhile looks x' x'' _ hmove ih =>
      obtain ⟨⟨state, hpolls, hstands⟩, honTime, hnames, hlooks⟩ := ih
      obtain ⟨honTime', hnow, hnames'⟩ := hmove.onTime honTime
      exact ⟨⟨state, hpolls, hmove.stands hnames hstands⟩, honTime',
        Nat.lt_of_lt_of_le hnames hnames', fun look hlook => Nat.le_trans (hlooks look hlook) hnow⟩

section Ending

variable (hx : x.OnTime) (hmax : 0 < max) (hfaults : x.queue.faults.receives = 0)

include hx hmax hfaults

/-- A receive that has no result waits until its deadline at the latest, and has found nothing. -/
theorem pending (h : Awaits x max wait looks x') (hresult : x'.resultOf? x.names = none) :
    ∃ poll, x'.Stands x.names (.waiting poll) ∧ x'.now ≤ poll.lookAt ∧
      poll.lookAt ≤ x.now + wait ∧ poll.deadline = x.now + wait ∧
        ∀ look ∈ looks, look.2.available look.1 = [] := by
  obtain ⟨⟨state, hpolls, hstands⟩, honTime, -, -⟩ := h.stands hx hmax hfaults
  cases state with
  | finished result =>
      rw [hstands.2] at hresult
      cases hresult
  | waiting poll =>
      obtain ⟨⟨-, hdeadline⟩, hbound, hlooks⟩ := hpolls.waiting hmax
      have hmem : poll ∈ x'.polls x.names := by
        rw [hstands.1]
        exact List.mem_singleton_self _
      obtain ⟨w, hw, rfl⟩ := List.mem_map.1 hmem
      exact ⟨w.poll, hstands, honTime.due w (List.mem_filter.1 hw).1, hbound, hdeadline,
        fun look hlook => (hlooks look hlook).1⟩

/-- A receive that has a result has ended with it. -/
theorem received (h : Awaits x max wait looks x')
    {result : Except TransportError (List Delivery)}
    (hresult : x'.resultOf? x.names = some result) :
    ∃ batch, result = .ok batch ∧ Queue.Received x.now max (x.now + wait) looks batch := by
  obtain ⟨⟨state, hpolls, hstands⟩, -, -, -⟩ := h.stands hx hmax hfaults
  cases state with
  | finished result' =>
      rw [hstands.2, Option.some.injEq] at hresult
      rw [hresult] at hpolls
      exact hpolls.received hmax (Nat.le_add_right ..)
  | waiting poll =>
      rw [hstands.2] at hresult
      cases hresult

/-- What an exchange does by itself as time passes is among what can happen. -/
theorem closed (looks : List (Nat × Queue)) :
    Closed fun y => ∃ more, Awaits x max wait (looks ++ more) y := by
  constructor
  · rintro y ⟨more, h⟩ names
    exact ⟨more, h.meanwhile (.reline names)⟩
  · rintro y ⟨more, h⟩ name
    by_cases hname : name = x.names
    · subst hname
      cases hresult : y.resultOf? x.names with
      | none =>
          have hlook := h.look hresult
          rw [List.append_assoc] at hlook
          exact ⟨_, hlook⟩
      | some result =>
          -- Whoever has ended does not wait, so that there is no look.
          obtain ⟨⟨state, -, hstands⟩, -, -, -⟩ := h.stands hx hmax hfaults
          have hpolls : y.polls x.names = [] := by
            cases state with
            | finished => exact hstands.1
            | waiting =>
                rw [hstands.2] at hresult
                cases hresult
          rcases look_cases y x.names with ⟨-, hlook⟩ | ⟨w, hw, hname, -, -⟩
          · exact ⟨more, by rwa [hlook]⟩
          · rw [polls, List.map_eq_nil_iff, List.filter_eq_nil_iff] at hpolls
            exact absurd (decide_eq_true hname) (hpolls w hw)
    · exact ⟨more, h.meanwhile (.look name hname)⟩
  · rintro y ⟨more, h⟩ instant hle
    exact ⟨more, h.meanwhile (.pass instant hle)⟩

/-- A round of waiting ends the receive, or goes on with those lined up who are due; then the
clock has moved, if those who were due had their turns. -/
private theorem await_round (h : Awaits x max wait looks x') (hnow : x'.now ≤ x.now + wait)
    (fuel : Nat) :
    (((await (fuel + 1) x.names x').resultOf? x.names).isSome ∧
      (await (fuel + 1) x.names x').now ≤ x.now + wait) ∨
    ∃ more y, Awaits x max wait (looks ++ more) y ∧ y.Lined ∧ x'.now ≤ y.now ∧
      (x'.Lined → x'.now < y.now) ∧ y.now ≤ x.now + wait ∧
        await (fuel + 1) x.names x' = await fuel x.names y := by
  obtain ⟨-, honTime, -, -⟩ := h.stands hx hmax hfaults
  have hclosed := @closed x max wait hx hmax hfaults looks
  obtain ⟨more, hturns⟩ := hclosed.runTurns ⟨[], by rwa [List.append_nil]⟩
  have hsame := now_runTurns x'
  rw [await]
  split
  · next hended => exact .inl ⟨hended, hnow⟩
  simp only
  cases hresult : x'.runTurns.resultOf? x.names with
  | some result =>
      simp only [Option.isSome_some, if_true]
      exact .inl ⟨by rw [hresult]; rfl, by omega⟩
  | none =>
      obtain ⟨poll, hstands, -, hbound, -, -⟩ := hturns.pending hx hmax hfaults hresult
      have hmem : poll ∈ x'.runTurns.polls x.names := by
        rw [hstands.1]
        exact List.mem_singleton_self _
      obtain ⟨w, hw, hpoll⟩ := List.mem_map.1 hmem
      simp only [Option.isSome_none, Bool.false_eq_true, if_false]
      split
      · next instant hnext =>
          obtain ⟨⟨w', hw', hinstant⟩, hfirst⟩ := nextLook_some hnext
          have hdue := honTime.runTurns.due w' hw'
          have hle := hfirst w (List.mem_filter.1 hw).1
          rw [hpoll] at hle
          have hrung : (x'.runTurns.ring instant).now = instant := Nat.max_eq_right (by omega)
          refine .inr ⟨more, _, hturns.meanwhile (.pass instant hfirst),
            lined_ring (by omega), by omega, fun hlined => ?_, by omega, rfl⟩
          have := honTime.later hlined w' hw'
          omega
      · next hnone =>
          rw [nextLook_none hnone] at hw
          cases hw

private theorem await_lined (h : Awaits x max wait looks x') (hlined : x'.Lined)
    (hnow : x'.now ≤ x.now + wait) {fuel : Nat} (hfuel : x.now + wait < x'.now + fuel) :
    ((await fuel x.names x').resultOf? x.names).isSome ∧
      (await fuel x.names x').now ≤ x.now + wait := by
  induction fuel generalizing looks x' with
  | zero => omega
  | succ fuel ih =>
      rcases h.await_round hx hmax hfaults hnow fuel with hended | ⟨more, y, hy, hlined', -,
        hlater, hbound, hawait⟩
      · exact hended
      · have := hlater hlined
        rw [hawait]
        exact ih hy hlined' hbound (by omega)

/-- An exchange by itself lets a waiting receive end at its deadline at the latest. -/
theorem finish (h : Awaits x max wait looks x') (hresult : x'.resultOf? x.names = none) :
    (x'.finish x.names).now ≤ x.now + wait ∧
      ∃ more batch, Awaits x max wait (looks ++ more) (x'.finish x.names) ∧
        (x'.finish x.names).resultOf? x.names = some (.ok batch) ∧
          Queue.Received x.now max (x.now + wait) (looks ++ more) batch := by
  obtain ⟨poll, hstands, hdue, hbound, hdeadline, -⟩ := h.pending hx hmax hfaults hresult
  have hlast : x.now + wait ≤ x'.lastDeadline := by
    have hmem : poll ∈ x'.polls x.names := by
      rw [hstands.1]
      exact List.mem_singleton_self _
    obtain ⟨w, hw, rfl⟩ := List.mem_map.1 hmem
    have hmax' : ∀ {ds : List Nat} {n d : Nat}, d ≤ n ∨ d ∈ ds → d ≤ ds.foldl Nat.max n := by
      intro ds
      induction ds with
      | nil => exact fun h => h.resolve_right (List.not_mem_nil)
      | cons e ds ih =>
          intro n d h
          refine ih ?_
          rcases h with h | h
          · exact .inl (Nat.le_trans h (Nat.le_max_left ..))
          · rcases List.mem_cons.1 h with rfl | h
            · exact .inl (Nat.le_max_right ..)
            · exact .inr h
    rw [← hdeadline]
    exact hmax' (.inr (List.mem_map_of_mem (List.mem_filter.1 hw).1))
  have hnow : x'.now ≤ x.now + wait := Nat.le_trans hdue hbound
  have hended : ((x'.finish x.names).resultOf? x.names).isSome ∧
      (x'.finish x.names).now ≤ x.now + wait := by
    unfold Exchange.finish
    rcases h.await_round hx hmax hfaults hnow (x'.lastDeadline - x'.now + 1) with hended |
      ⟨more, y, hy, hlined, hle, -, hbound', hawait⟩
    · exact hended
    · rw [hawait]
      exact hy.await_lined hx hmax hfaults hlined hbound' (by omega)
  obtain ⟨more, hmore⟩ := (@closed x max wait hx hmax hfaults looks).await
    ⟨[], by rwa [List.append_nil]⟩ (x'.lastDeadline - x'.now + 2) x.names
  obtain ⟨result, hsome⟩ := Option.isSome_iff_exists.1 hended.1
  obtain ⟨batch, rfl, hreceived⟩ := hmore.received hx hmax hfaults hsome
  exact ⟨hended.2, more, batch, hmore, hsome, hreceived⟩

end Ending

end Awaits

/-! ## Receives in the foreground -/

/-- A receive that is waited for goes on from look to look until it ends. -/
theorem follow_received {x : Exchange} (hx : x.OnTime) {began max deadline fuel : Nat}
    (hmax : 0 < max) {looks : List (Nat × Queue)} {q : Queue}
    (hpolls : Queue.Polls began max deadline (looks ++ [(x.now, q)])
      (q.poll x.now max deadline).2)
    (hlooks : ∀ look ∈ looks, look.1 ≤ x.now) (hnow : x.now ≤ deadline)
    (hfuel : deadline < x.now + fuel) :
    ∃ x' result looks' now' q',
      follow fuel x (q.poll x.now max deadline) = (x', result) ∧ x'.now ≤ deadline ∧
        Queue.Polls began max deadline (looks' ++ [(now', q')]) (.finished result) ∧
          x'.queue = (q'.look now' max).1 := by
  induction fuel generalizing x looks q with
  | zero => omega
  | succ fuel ih =>
      have hqueue := q.fst_poll x.now max deadline
      cases hpoll : q.poll x.now max deadline with
      | mk q₁ state =>
          rw [hpoll] at hpolls hqueue
          cases state with
          | finished result =>
              exact ⟨_, result, looks, x.now, q, rfl, hnow, hpolls, hqueue⟩
          | waiting poll =>
              obtain ⟨⟨hpollMax, hpollDeadline⟩, hbound, hfound⟩ := hpolls.waiting hmax
              have hlater := (hfound (x.now, q) (by simp)).2.2
              have hreaches : poll.lookAt < x.now + (poll.lookAt - x.now + 1) := by omega
              obtain ⟨-, honTime, hclock⟩ := closed_onTime.advanceTo (hx.with_queue q₁)
                (hx.with_queue q₁) (Nat.le_of_lt hlater) hreaches
              unfold follow
              simp only [hpollMax, hpollDeadline]
              generalize advanceTo (poll.lookAt - x.now + 1) poll.lookAt
                { x with queue := q₁ } = y at honTime hclock ⊢
              have hearly : ∀ look ∈ looks ++ [(x.now, q)], look.1 ≤ y.now := by
                intro look hlook
                have := (hfound look hlook).2.2
                omega
              exact ih honTime (hpolls.next y.queue hearly (Nat.le_of_eq hclock)) hearly
                (by omega) (by omega)

/-- Why a receive in the foreground ends. -/
theorem receive_received {x : Exchange} {max : Nat} (hx : x.OnTime) (hmax : 0 < max)
    (hfaults : x.queue.faults.receives = 0) (wait : Nat) :
    (x.receive max wait).1.now ≤ x.now + wait ∧ ∃ looks now q batch,
      (x.receive max wait).2 = .ok batch ∧ (x.receive max wait).1.queue = (q.look now max).1 ∧
        Queue.Received x.now max (x.now + wait) (looks ++ [(now, q)]) batch := by
  have hreceive : x.queue.receive x.now max wait =
      x.queue.beginReceive.1.poll x.now max (x.now + wait) := by
    simp [Queue.receive, Queue.beginReceive, hfaults]
  have hbegun : Queue.Polls x.now max (x.now + wait) ([] ++ [(x.now, x.queue.beginReceive.1)])
      (x.queue.beginReceive.1.poll x.now max (x.now + wait)).2 := .first _
  have hnone : ∀ look ∈ ([] : List (Nat × Queue)), look.1 ≤ x.now :=
    fun _ hlook => absurd hlook List.not_mem_nil
  have hfuel : x.now + wait < x.now + (wait + 1) := by omega
  obtain ⟨x', result, looks, now, q, hfollow, hnow, hpolls, hqueue⟩ :=
    follow_received hx hmax hbegun hnone (Nat.le_add_right ..) hfuel
  obtain ⟨batch, rfl, hreceived⟩ := hpolls.received hmax (Nat.le_add_right ..)
  rw [Exchange.receive, hreceive, hfollow]
  exact ⟨hnow, looks, now, q, batch, rfl, hqueue, hreceived⟩

/--
**Receives end in time.** Let a receive that shall not fail begin at an
exchange that is on time.  Whatever happens at the exchange meanwhile, with
any looks of the receive in between, either it still waits: then its deadline
is not over, its looks have found nothing, and the exchange by itself lets it
end before or at the deadline.  Or it has ended: then its looks were in time,
all but the last have found nothing, and the last has taken the first
messages, as many as were asked for, of those in line and behind them those
of expired leases; it has taken none only at the deadline and only if none
were there.  A receive in the foreground ends in the same way.
-/
theorem receives_end_in_time {x : Exchange} {max wait : Nat} (hx : x.OnTime) (hmax : 0 < max)
    (hfaults : x.queue.faults.receives = 0) :
    (∀ looks x', Awaits x max wait looks x' →
      (x'.resultOf? x.names = none ∧ x'.now ≤ x.now + wait ∧
        (∀ look ∈ looks, look.2.available look.1 = []) ∧
        (x'.finish x.names).now ≤ x.now + wait ∧
        ∃ more batch, Awaits x max wait (looks ++ more) (x'.finish x.names) ∧
          (x'.finish x.names).resultOf? x.names = some (.ok batch) ∧
          Queue.Received x.now max (x.now + wait) (looks ++ more) batch) ∨
      ∃ batch, x'.resultOf? x.names = some (.ok batch) ∧
        Queue.Received x.now max (x.now + wait) looks batch) ∧
    (x.receive max wait).1.now ≤ x.now + wait ∧ ∃ looks now q batch,
      (x.receive max wait).2 = .ok batch ∧ (x.receive max wait).1.queue = (q.look now max).1 ∧
        Queue.Received x.now max (x.now + wait) (looks ++ [(now, q)]) batch := by
  refine ⟨fun looks x' h => ?_, receive_received hx hmax hfaults wait⟩
  cases hresult : x'.resultOf? x.names with
  | none =>
      obtain ⟨poll, -, hdue, hbound, -, hlooks⟩ := h.pending hx hmax hfaults hresult
      obtain ⟨hnow, hfinish⟩ := h.finish hx hmax hfaults hresult
      exact .inl ⟨rfl, Nat.le_trans hdue hbound, hlooks, hnow, hfinish⟩
  | some result =>
      obtain ⟨batch, rfl, hreceived⟩ := h.received hx hmax hfaults hresult
      exact .inr ⟨batch, rfl, hreceived⟩

/-- Another receive takes a message before one that has been waiting can look; the lease expires
at the deadline of the latter, which then takes the message. -/
theorem receives_end_in_time_of_expiry :
    ∃ looks x', Awaits (empty 20) 2 25 looks x' ∧ x'.now = 5 ∧ x'.resultOf? 0 = none ∧
      (x'.finish 0).now = 25 ∧ ∃ more batch, (x'.finish 0).resultOf? 0 = some (.ok batch) ∧
        batch.map Delivery.message = [⟨1, [7]⟩] ∧
          Queue.Received 0 2 25 (looks ++ more) batch := by
  have hbegun : Awaits (empty 20) 2 25 _ _ := .begun
  have hsent := (hbegun.meanwhile (.pass 5 (by decide))).meanwhile (.send [7])
  have hlooked := (hsent.meanwhile (.begin 1 0)).look (by decide)
  obtain ⟨looks, x', h, hnow, hresult, hend, hmessages⟩ :
      ∃ looks x', Awaits (empty 20) 2 25 looks x' ∧ x'.now = 5 ∧ x'.resultOf? 0 = none ∧
        (x'.finish 0).now = 25 ∧ (x'.finish 0).resultOf? 0 = some (.ok [⟨⟨1, [7]⟩, 2⟩]) :=
    ⟨_, _, hlooked, by decide, by decide, by decide, by decide +kernel⟩
  rcases (receives_end_in_time (.empty 20) (by decide) rfl).1 looks x' h with
    ⟨-, -, -, -, more, batch, -, hfinish, hreceived⟩ | ⟨batch, hended, -⟩
  · have hbatch := hfinish.symm.trans hmessages
    simp only [Option.some.injEq, Except.ok.injEq] at hbatch
    exact ⟨looks, x', h, hnow, hresult, hend, more, batch, hfinish, by rw [hbatch]; rfl,
      hreceived⟩
  · have hnone : x'.resultOf? (empty 20).names = none := hresult
    rw [hnone] at hended
    cases hended

end Exchange

end ProductCatalog
