import ProductCatalog.Proofs.Queue.Tokens

/-!
# The order of first deliveries

Messages wait in one line, where new messages stand mixed with messages that
have been given back from expired leases.  Those that have never been
delivered keep the order in which they were sent all the same: what is given
back has been delivered before, and the line is shortened only from its front.

So the messages delivered so far, each where it was delivered first, followed
by the messages in line that have never been delivered, are at every moment
all messages sent, in order.

## Main definitions

* `Queue.PollState.returned` — what a receive returns.
* `Exchange.delivered` — the messages delivered, as often as they were.
* `Exchange.InOrder` — first deliveries and sends are in the same order.

## Main results

* `Exchange.InOrder.transition` — whatever happens to a queue keeps the order.
* `Exchange.first_deliveries_in_order` — first deliveries are in the order of
  sends, without a gap, and no batch has a message twice.
-/

namespace ProductCatalog

open Queue (Delivery Message Lease Transition)

/-- Nothing is dropped from a list without repetitions. -/
theorem eraseDups_of_nodup {α : Type} [BEq α] [LawfulBEq α] {l : List α} (h : l.Nodup) :
    l.eraseDups = l := by
  induction l with
  | nil => rfl
  | cons a l ih =>
      obtain ⟨ha, hl⟩ := List.nodup_cons.1 h
      have hothers : (l.filter fun b => !b == a) = l := by
        rw [List.filter_eq_self]
        intro b hb
        simpa using fun heq : b = a => ha (heq ▸ hb)
      rw [List.eraseDups_cons, hothers, ih hl]

/-! ## What receives return -/

namespace Queue

open Exchange (Deed)

/-- The deliveries that a receive returns, if it ends. -/
def PollState.returned : PollState → List Delivery
  | .finished (.ok batch) => batch
  | .finished (.error _) | .waiting _ => []

/-- A look returns what it takes; a receive that goes on waiting has taken nothing. -/
theorem returned_poll (q : Queue) (now max deadline : Nat) :
    (q.poll now max deadline).2.returned = (q.look now max).2 := by
  rcases q.poll_cases now max deadline with hpoll | ⟨hempty, _, hpoll⟩
  · rw [hpoll]
    rfl
  · rw [hpoll, hempty]
    rfl

theorem returned_receive (q : Queue) (now max wait : Nat) :
    (q.receive now max wait).2.returned = (q.receiveDeeds now max).flatMap Deed.batch := by
  obtain ⟨faults, result, hbegin⟩ := q.beginReceive_cases
  cases result with
  | error error =>
      simp only [receiveDeeds, receive, hbegin]
      rfl
  | ok =>
      simp only [receiveDeeds, receive, hbegin, returned_poll, List.flatMap_singleton]
      rfl

/-- No batch of a sound queue has a message twice. -/
theorem Transition.batch_nodup {q q' : Queue} {now : Nat} {deeds : List Deed}
    (h : Transition q now deeds q') (hq : q.Sound) {batch : List Delivery}
    (hbatch : .looked batch ∈ deeds) : (batch.map Delivery.message).Nodup := by
  cases h with
  | looked max =>
      obtain rfl := Deed.looked.inj (List.mem_singleton.1 hbatch)
      exact hq.batch_nodup now max
  | rested | sent | deleted => simp at hbatch

end Queue

namespace Exchange

/-! ## Messages delivered -/

/-- The messages delivered, as often as they were, in the order of deliveries. -/
def delivered (history : History) : List Message := (deliveries history).map (·.2.message)

/-- Those of some messages that have never been delivered, in their order. -/
def undelivered (history : History) (messages : List Message) : List Message :=
  messages.filter fun m => m ∉ delivered history

section Reading

variable (history : History) (now : Nat)

theorem delivered_snoc (deed : Deed) : delivered (history ++ [(now, deed)]) =
    delivered history ++ deed.batch.map Delivery.message := by
  rw [delivered, deliveries_append, deliveries_singleton, List.map_append, List.map_map]
  rfl

theorem undelivered_append (ms ms' : List Message) :
    undelivered history (ms ++ ms') = undelivered history ms ++ undelivered history ms' :=
  List.filter_append ..

/-- Messages that have all been delivered do not count. -/
theorem undelivered_eq_nil {ms : List Message} (h : ∀ m ∈ ms, m ∈ delivered history) :
    undelivered history ms = [] :=
  List.filter_eq_nil_iff.2 fun m hm => by simpa using h m hm

/-- What a batch delivers for the first time follows what has been delivered before. -/
theorem eraseDups_delivered_snoc {batch : List Delivery}
    (h : (batch.map Delivery.message).Nodup) :
    (delivered (history ++ [(now, .looked batch)])).eraseDups =
      (delivered history).eraseDups ++ undelivered history (batch.map Delivery.message) := by
  have hnew : (batch.map Delivery.message).removeAll (delivered history) =
      undelivered history (batch.map Delivery.message) := by
    refine List.filter_congr fun m _ => ?_
    rw [List.elem_eq_mem, decide_not]
  have hnodup : (undelivered history (batch.map Delivery.message)).Nodup := h.filter _
  rw [delivered_snoc, List.eraseDups_append, Deed.batch, hnew, eraseDups_of_nodup hnodup]

/-- Messages that a batch does not have are as new after it as before. -/
theorem undelivered_snoc {deed : Deed} {ms : List Message}
    (h : ∀ m ∈ ms, m ∉ deed.batch.map Delivery.message) :
    undelivered (history ++ [(now, deed)]) ms = undelivered history ms := by
  refine List.filter_congr fun m hm => decide_eq_decide.2 ?_
  rw [delivered_snoc, List.mem_append, or_iff_left (h m hm)]

end Reading

/-! ## The order is kept -/

/--
The messages delivered, each where it was delivered first, and after them
those in line that have never been delivered, are all messages sent.
-/
def InOrder (history : History) (q : Queue) : Prop :=
  (delivered history).eraseDups ++ undelivered history q.visible = q.sent

namespace InOrder

variable {visibility now : Nat} {history : History} {q q' : Queue}

/-- A deed that makes no delivery is of no account. -/
theorem note (h : InOrder history q) {deed : Deed} (hdeed : deed.batch = []) :
    InOrder (history ++ [(now, deed)]) q := by
  have hdelivered : delivered (history ++ [(now, deed)]) = delivered history := by
    rw [delivered_snoc, hdeed, List.map_nil, List.append_nil]
  rw [InOrder] at h ⊢
  rw [undelivered_snoc history now (by simp [hdeed]), hdelivered, h]

/-- A message that is sent comes last of those that have never been delivered. -/
theorem push (h : InOrder history q) (hrecorded : Recorded visibility history now q)
    (body : Text.Bytes) : InOrder history (q.push body) := by
  have hnew : (⟨q.sent.length + 1, body⟩ : Message) ∉ delivered history := by
    intro hmem
    obtain ⟨x, hx, heq⟩ := List.mem_map.1 hmem
    exact hrecorded.fresh body x hx heq
  have hlast : undelivered history [⟨q.sent.length + 1, body⟩] = [⟨q.sent.length + 1, body⟩] :=
    List.filter_eq_self.2 (by simpa using hnew)
  rw [InOrder] at h ⊢
  show _ ++ undelivered history (q.visible ++ [_]) = q.sent ++ [_]
  rw [undelivered_append, hlast, ← List.append_assoc, h]

/-- What is given back to the line has been delivered before. -/
theorem reclaim (h : InOrder history q) (hrecorded : Recorded visibility history now q) :
    InOrder history (q.reclaim now) := by
  rw [InOrder] at h ⊢
  have hback : undelivered history
      ((q.leased.filter (Lease.expired now)).map (·.delivery.message)) = [] := by
    refine undelivered_eq_nil history fun m hm => ?_
    obtain ⟨lease, hl, rfl⟩ := List.mem_map.1 hm
    obtain ⟨t, -, hout, -⟩ := (hrecorded.leased lease).1 (List.mem_of_mem_filter hl)
    exact List.mem_map.2 ⟨_, hout.mem_deliveries, rfl⟩
  show _ ++ undelivered history (q.visible ++ _) = q.sent
  rw [undelivered_append, hback, List.append_nil, h]

/-- A look delivers from the front of the line. -/
theorem looked (h : InOrder history q) (hrecorded : Recorded visibility history now q)
    (max : Nat) :
    InOrder (history ++ [(now, .looked (q.look now max).2)]) (q.look now max).1 := by
  have hbatch := hrecorded.sound.batch_nodup now max
  have hline := (hrecorded.sound.reclaim now).visible_nodup
  -- what stays in line has not been taken from its front
  have hrest : ∀ m ∈ (q.look now max).1.visible, m ∉ (q.look now max).2.map Delivery.message := by
    intro m hm
    rw [Queue.map_message_look]
    exact fun htaken => List.disjoint_take_drop hline (Nat.le_refl max) htaken hm
  have hparts : (q.look now max).2.map Delivery.message ++ (q.look now max).1.visible =
      (q.reclaim now).visible := by
    rw [Queue.map_message_look]
    exact List.take_append_drop max _
  have hreclaimed := h.reclaim hrecorded
  rw [InOrder] at hreclaimed ⊢
  rw [eraseDups_delivered_snoc history now hbatch, undelivered_snoc history now hrest,
    List.append_assoc, ← undelivered_append, hparts, hreclaimed]
  rfl

/-- Whatever happens to a queue, first deliveries stay in the order of sends. -/
theorem transition {deeds : List Deed} (h : InOrder history q)
    (hrecorded : Recorded visibility history now q) (ht : Transition q now deeds q') :
    InOrder (history ++ deeds.map (Prod.mk now)) q' := by
  cases ht with
  | rested =>
      rw [List.map_nil, List.append_nil]
      exact h
  | sent body => exact (h.push hrecorded body).note rfl
  | looked max => exact h.looked hrecorded max
  | deleted => exact InOrder.note h rfl

end InOrder

variable {visibility : Nat} {history : History} {x : Exchange}

theorem Runs.inOrder (h : Runs (empty visibility) history x) : InOrder history x.queue := by
  induction h with
  | refl => rfl
  | move hruns hmove ih => exact ih.transition hruns.recorded hmove.transition.1

/-- No look hands a message out twice. -/
theorem Runs.batch_nodup (h : Runs (empty visibility) history x) {t : Nat} {batch : List Delivery}
    (hbatch : (t, .looked batch) ∈ history) : (batch.map Delivery.message).Nodup := by
  induction h with
  | refl => exact absurd hbatch List.not_mem_nil
  | @move history x deeds x' hruns hmove ih =>
      rcases List.mem_append.1 hbatch with hbefore | hlast
      · exact ih hbefore
      · obtain ⟨deed, hdeed, heq⟩ := List.mem_map.1 hlast
        obtain ⟨-, rfl⟩ := Prod.mk.inj heq
        exact hmove.transition.1.batch_nodup hruns.sound hdeed

/--
Whatever happens at an exchange, the messages delivered, each where it was
delivered first, are the first messages sent, in the order in which they were
sent and none left out; those that have never been delivered wait in line in
the order in which they follow.  No batch has a message twice.  What a
receive returns when it begins, or at any later look, is all that is taken
from the line for it.
-/
theorem first_deliveries_in_order (h : Runs (empty visibility) history x) :
    (delivered history).eraseDups <+: Queue.messages (sends history) ∧
      (delivered history).eraseDups ++ undelivered history x.queue.visible =
        Queue.messages (sends history) ∧
      (∀ t batch, (t, .looked batch) ∈ history → (batch.map Delivery.message).Nodup) ∧
      (∀ max wait, (x.queue.receive x.now max wait).2.returned =
        (x.queue.receiveDeeds x.now max).flatMap Deed.batch) ∧
      ∀ max deadline, (x.queue.poll x.now max deadline).2.returned =
        (x.queue.look x.now max).2 := by
  have horder : (delivered history).eraseDups ++ undelivered history x.queue.visible =
      Queue.messages (sends history) := h.inOrder.trans h.sent_eq
  refine ⟨⟨_, horder⟩, horder, ?_, x.queue.returned_receive x.now, x.queue.returned_poll x.now⟩
  intro t batch
  exact h.batch_nodup

/-- A message is delivered again between the first deliveries of two others. -/
theorem first_deliveries_in_order_of_redelivery :
    ∃ history x, Runs (empty 20) history x ∧ sends history = [[7], [8], [9], [10]] ∧
      (delivered history).map Message.body = [[7], [8], [7], [9]] ∧
      x.queue.visible.map Message.body = [[10]] ∧
      (delivered history).eraseDups <+: Queue.messages [[7], [8], [9], [10]] := by
  have hfirst : Runs (empty 20) _ _ := (Runs.refl.move (.send [7])).move (.begin 1 0)
  have hexpired := (hfirst.move (.send [8])).move (.pass 30)
  have hsecond := (hexpired.move (.begin 1 0)).move (.send [9])
  have hthird := (hsecond.move (.begin 2 0)).move (.send [10])
  obtain ⟨history, x, hruns, hsends, hdelivered, hline⟩ :
      ∃ history x, Runs (empty 20) history x ∧ sends history = [[7], [8], [9], [10]] ∧
        (delivered history).map Message.body = [[7], [8], [7], [9]] ∧
        x.queue.visible.map Message.body = [[10]] :=
    ⟨_, _, hthird, by decide, by decide, by decide⟩
  exact ⟨history, x, hruns, hsends, hdelivered, hline,
    hsends ▸ (first_deliveries_in_order hruns).1⟩

end Exchange

end ProductCatalog
