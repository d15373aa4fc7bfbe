import ProductCatalog.Proofs.Keyed
import ProductCatalog.Queue.Exchange

/-!
# Messages are conserved

A queue neither loses nor doubles a message: what was sent is in line,
leased or deleted.  Tokens tell deliveries apart, so a deletion takes away
one lease and no other.

`Queue.Reachable` says how a queue comes about; `Queue.Sound` is what holds
of every such queue.

## Main results

* `Queue.token_inj` — a token names its message and its delivery.
* `Queue.delete_cases`, `receive_cases`, `poll_cases` — what operations do.
* `Queue.Reachable.sound` — every queue that comes about is sound.
-/

namespace ProductCatalog.Queue

open Text

/-! ## Tokens -/

/-- A separator splits a text at one place only, if what stands before it has none. -/
private theorem append_cons_inj {sep : Char} {xs xs' ys ys' : List Char} (hxs : sep ∉ xs)
    (hxs' : sep ∉ xs') (h : xs ++ sep :: ys = xs' ++ sep :: ys') : xs = xs' ∧ ys = ys' := by
  induction xs generalizing xs' with
  | nil =>
      cases xs' with
      | nil => exact ⟨rfl, (List.cons.inj h).2⟩
      | cons x xs' =>
          have hx : sep = x := (List.cons.inj h).1
          exact absurd (hx ▸ List.mem_cons_self) hxs'
  | cons x xs ih =>
      cases xs' with
      | nil =>
          have hx : x = sep := (List.cons.inj h).1
          exact absurd (hx ▸ List.mem_cons_self) hxs
      | cons x' xs' =>
          obtain ⟨rfl, htail⟩ := List.cons.inj h
          rw [List.mem_cons, not_or] at hxs hxs'
          obtain ⟨rfl, hys⟩ := ih hxs.2 hxs'.2 htail
          exact ⟨rfl, hys⟩

private theorem hyphen_not_mem_ofNat (n : Nat) : '-' ∉ Digits.ofNat n := by
  intro hmem
  have hdigit := List.all_eq_true.1 (Digits.ofNat_isDigit n) _ hmem
  exact absurd hdigit (by decide)

/-- A token names its message and its delivery. -/
theorem token_inj {m n m' n' : Nat} (h : token m n = token m' n') : m = m' ∧ n = n' := by
  have hchars := congrArg String.toList h
  rw [token, token, String.toList_ofList, String.toList_ofList] at hchars
  obtain ⟨hm, hn⟩ :=
    append_cons_inj (hyphen_not_mem_ofNat m) (hyphen_not_mem_ofNat m') hchars
  exact ⟨Digits.ofNat_inj hm, Digits.ofNat_inj hn⟩

/-! ## Sound queues -/

/-- The messages that are still with a queue: in line or leased. -/
def held (q : Queue) : List Message := q.visible ++ q.leased.map (·.delivery.message)

/--
Every message sent has its own number and is held or deleted, and every
lease belongs to a delivery of its own.
-/
structure Sound (q : Queue) : Prop where
  numbers : q.sent.map (·.number) = List.range' 1 q.sent.length
  conserved : (q.held ++ q.deleted).Perm q.sent
  counted : ∀ lease ∈ q.leased, lease.delivery.number ≤ q.deliveries
  distinct : (q.leased.map (·.delivery.number)).Nodup

namespace Sound

variable {q : Queue}

theorem empty (visibility : Nat) : Sound { visibility := visibility } where
  numbers := rfl
  conserved := .nil
  counted _ h := absurd h List.not_mem_nil
  distinct := List.nodup_nil

/-- No message is sent twice. -/
theorem sent_nodup (h : q.Sound) : q.sent.Nodup := by
  have hnumbers : (q.sent.map (·.number)).Nodup := h.numbers ▸ List.nodup_range'
  exact hnumbers.of_map

/-- Leases are told apart by their tokens. -/
theorem tokens_nodup (h : q.Sound) : (q.leased.map (·.delivery.token)).Nodup := by
  rw [List.nodup_map_iff_inj_on h.distinct.of_map]
  intro lease hl other ho htoken
  exact List.inj_on_of_nodup_map h.distinct hl ho (token_inj htoken).2

end Sound

/-! ## The operations -/

/-- A send that is told to fail changes nothing but the number of sends that shall fail. -/
theorem send_cases (q : Queue) (body : Bytes) :
    q.send body = (q.push body, .ok ()) ∨
      ∃ faults e, q.send body = ({ q with faults := faults }, .error e) := by
  unfold send
  split
  · exact .inr ⟨_, _, rfl⟩
  · exact .inl rfl

/-- The beginning of a receive is counted, and changes nothing else but faults. -/
theorem beginReceive_cases (q : Queue) :
    ∃ faults result,
      q.beginReceive = ({ q with receives := q.receives + 1, faults := faults }, result) := by
  unfold beginReceive
  simp only
  split
  · exact ⟨_, _, rfl⟩
  · exact ⟨_, _, rfl⟩

/-- A deletion takes away the message of the lease with its token, or changes nothing but faults. -/
theorem delete_cases (q : Queue) (token : String) :
    (∃ lease ∈ q.leased, lease.delivery.token = token ∧
        q.delete token =
          ({ q with
              leased := q.leased.filter fun other => other.delivery.token != token
              deleted := q.deleted ++ [lease.delivery.message] },
            .ok ())) ∨
      ∃ faults e, q.delete token = ({ q with faults := faults }, .error e) := by
  unfold delete
  split
  · exact .inr ⟨_, _, rfl⟩
  · split
    · rename_i lease hlease
      have htoken : lease.delivery.token = token := by
        simpa using List.find?_some hlease
      exact .inl ⟨lease, List.mem_of_find?_eq_some hlease, htoken, rfl⟩
    · exact .inr ⟨q.faults, _, rfl⟩

/-- A deletion takes away no lease with another token. -/
theorem mem_leased_delete {q : Queue} {lease : Lease} {token : String} (hl : lease ∈ q.leased)
    (hne : lease.delivery.token ≠ token) : lease ∈ (q.delete token).1.leased := by
  rcases q.delete_cases token with ⟨_, -, -, hdelete⟩ | ⟨faults, error, hdelete⟩
  · rw [hdelete]
    exact List.mem_filter.2 ⟨hl, bne_iff_ne.2 hne⟩
  · rw [hdelete]
    exact hl

theorem visibility_delete (q : Queue) (token : String) :
    (q.delete token).1.visibility = q.visibility := by
  rcases q.delete_cases token with ⟨_, -, -, hdelete⟩ | ⟨faults, error, hdelete⟩
  · rw [hdelete]
  · rw [hdelete]

theorem sent_delete (q : Queue) (token : String) : (q.delete token).1.sent = q.sent := by
  rcases q.delete_cases token with ⟨_, -, -, hdelete⟩ | ⟨faults, error, hdelete⟩
  · rw [hdelete]
  · rw [hdelete]

theorem deliveries_delete (q : Queue) (token : String) :
    (q.delete token).1.deliveries = q.deliveries := by
  rcases q.delete_cases token with ⟨_, -, -, hdelete⟩ | ⟨faults, error, hdelete⟩
  · rw [hdelete]
  · rw [hdelete]

theorem leased_delete_subset (q : Queue) (token : String) :
    (q.delete token).1.leased ⊆ q.leased := by
  rcases q.delete_cases token with ⟨_, -, -, hdelete⟩ | ⟨faults, error, hdelete⟩
  · rw [hdelete]
    exact List.filter_sublist.subset
  · rw [hdelete]
    exact List.Subset.refl _

/-- A deletion does not change which receives shall fail. -/
theorem receives_faults_delete (q : Queue) (token : String) :
    (q.delete token).1.faults.receives = q.faults.receives := by
  unfold delete
  split
  · rfl
  · split <;> rfl

/-- Deliveries are numbered one after another. -/
theorem map_number_numbered (n : Nat) (ms : List Message) :
    (numbered n ms).map Delivery.number = List.range' (n + 1) ms.length := by
  induction ms generalizing n with
  | nil => rfl
  | cons m ms ih => simp [numbered, ih, List.range'_succ]

namespace Sound

variable {q : Queue}

/-- A message more is in line. -/
theorem push (h : q.Sound) (body : Bytes) : (q.push body).Sound where
  numbers := by
    simp only [Queue.push, List.map_append, h.numbers, List.length_append]
    rw [List.length_singleton, List.range'_1_concat, Nat.add_comm 1]
    rfl
  conserved := by
    rw [List.perm_iff_count]
    intro m
    have hcount := h.conserved.count_eq m
    simp only [held, Queue.push, List.count_append] at hcount ⊢
    omega
  counted := h.counted
  distinct := h.distinct

/-- Messages of leases that have run out go back to the line. -/
theorem reclaim (h : q.Sound) (now : Nat) : (q.reclaim now).Sound where
  numbers := h.numbers
  conserved := by
    rw [List.perm_iff_count]
    intro m
    have hcount := h.conserved.count_eq m
    have hleases := ((List.filter_append_perm (Lease.expired now) q.leased).map
      (·.delivery.message)).count_eq m
    simp only [held, Queue.reclaim, List.map_append, List.count_append] at hcount hleases ⊢
    omega
  counted lease hl := h.counted lease (List.mem_of_mem_filter hl)
  distinct := h.distinct.sublist (List.filter_sublist.map _)

end Sound

/-! ## Looks -/

/-- A receive is counted; unless it is told to fail, it looks at the queue. -/
theorem receive_cases (q : Queue) (now max wait : Nat) :
    ∃ receives faults,
      (∃ error, q.receive now max wait =
        ({ q with receives := receives, faults := faults }, .finished (.error error))) ∨
      q.receive now max wait =
        Queue.poll { q with receives := receives, faults := faults } now max (now + wait) := by
  obtain ⟨faults, result, hbegin⟩ := q.beginReceive_cases
  refine ⟨q.receives + 1, faults, ?_⟩
  cases result with
  | error error => exact .inl ⟨error, by simp only [receive, hbegin]⟩
  | ok => exact .inr (by simp only [receive, hbegin])

/-- A receive that is told to fail does so. -/
theorem receive_of_fault {q : Queue} {n : Nat} (h : q.faults.receives = n + 1)
    (now max wait : Nat) :
    q.receive now max wait =
      ({ q with receives := q.receives + 1, faults := { q.faults with receives := n } },
        .finished (.error (.receive "injected receive failure"))) := by
  simp only [receive, beginReceive, h]

/-- Any other receive looks at the queue. -/
theorem receive_eq_poll {q : Queue} (h : q.faults.receives = 0) (now max wait : Nat) :
    q.receive now max wait =
      Queue.poll { q with receives := q.receives + 1 } now max (now + wait) := by
  simp only [receive, beginReceive, h]

/-- A receive that looks ends with what it finds, or waits if that is nothing. -/
theorem poll_cases (q : Queue) (now max deadline : Nat) :
    q.poll now max deadline = ((q.look now max).1, .finished (.ok (q.look now max).2)) ∨
      ((q.look now max).2 = [] ∧
        ∃ poll, q.poll now max deadline = ((q.look now max).1, .waiting poll)) := by
  unfold poll
  simp only
  split
  · exact .inl rfl
  · rename_i hempty
    refine .inr ⟨?_, _, rfl⟩
    simp only [Bool.or_eq_true, not_or, Bool.not_eq_true, Bool.not_eq_false'] at hempty
    exact List.isEmpty_iff.1 hempty.1

/-- What a look hands out is numbered after all deliveries before. -/
theorem map_number_look (q : Queue) (now max : Nat) :
    (q.look now max).2.map Delivery.number =
      List.range' (q.deliveries + 1) (q.look now max).2.length := by
  simp only [look, lease, map_number_numbered, numbered_length, reclaim]

/-- The leases after a look are those that have not run out and those of what it hands out. -/
theorem mem_leased_look_iff {q : Queue} {now max : Nat} {lease : Lease} :
    lease ∈ (q.look now max).1.leased ↔ (lease ∈ q.leased ∧ now < lease.visibleAt) ∨
      (lease.delivery ∈ (q.look now max).2 ∧ lease.visibleAt = now + q.visibility) := by
  obtain ⟨d, visibleAt⟩ := lease
  rw [eq_comm (a := visibleAt)]
  simp [look, Queue.lease, reclaim, Lease.expired]

/-- A lease after a look was there before or belongs to what has been handed out. -/
theorem mem_leased_look {q : Queue} {now max : Nat} {lease : Lease}
    (h : lease ∈ (q.look now max).1.leased) :
    lease ∈ q.leased ∨ lease.delivery ∈ (q.look now max).2 :=
  (mem_leased_look_iff.1 h).imp And.left And.left

namespace Sound

variable {q : Queue}

/-- Messages from the line are leased for new deliveries. -/
theorem lease (h : q.Sound) (now max : Nat) : (q.lease now max).1.Sound where
  numbers := h.numbers
  conserved := by
    rw [List.perm_iff_count]
    intro m
    have hcount := h.conserved.count_eq m
    have hline := congrArg (List.count m) (List.take_append_drop max q.visible)
    have hbatch : ((numbered q.deliveries (q.visible.take max)).map
        fun d => (⟨d, now + q.visibility⟩ : Lease)).map (·.delivery.message) =
          q.visible.take max := by
      rw [List.map_map]
      exact map_message_numbered _ _
    simp only [held, Queue.lease, List.map_append, hbatch, List.count_append] at hcount hline ⊢
    omega
  counted lease hl := by
    show lease.delivery.number ≤ q.deliveries + _
    rcases List.mem_append.1 hl with hold | hnew
    · exact Nat.le_trans (h.counted lease hold) (Nat.le_add_right _ _)
    · obtain ⟨d, hd, rfl⟩ := List.mem_map.1 hnew
      have hnumber := List.mem_map_of_mem (f := Delivery.number) hd
      rw [map_number_numbered, List.mem_range'_1] at hnumber
      rw [numbered_length]
      show d.number ≤ _
      omega
  distinct := by
    have hnew : ((numbered q.deliveries (q.visible.take max)).map
        fun d => (⟨d, now + q.visibility⟩ : Lease)).map (·.delivery.number) =
          List.range' (q.deliveries + 1) (q.visible.take max).length := by
      rw [List.map_map]
      exact map_number_numbered _ _
    simp only [Queue.lease, List.map_append, hnew]
    rw [List.nodup_append]
    refine ⟨h.distinct, List.nodup_range', ?_⟩
    rintro n hold _ hin rfl
    obtain ⟨lease, hl, rfl⟩ := List.mem_map.1 hold
    have hle := h.counted lease hl
    rw [List.mem_range'_1] at hin
    omega

/-- A look moves messages and loses none. -/
theorem look (h : q.Sound) (now max : Nat) : (q.look now max).1.Sound :=
  (h.reclaim now).lease now max

/-- What is held is the message of one lease and all that the other leases and the line hold. -/
theorem held_perm (h : q.Sound) {lease : Lease} (hl : lease ∈ q.leased) :
    q.held.Perm (lease.delivery.message :: (q.visible ++ (q.leased.filter fun other =>
      other.delivery.token != lease.delivery.token).map (·.delivery.message))) := by
  have hleases := (perm_cons_filter_key h.tokens_nodup hl).map (·.delivery.message)
  exact (hleases.append_left q.visible).trans List.perm_middle

/-- A lease and its message are taken away together. -/
theorem remove (h : q.Sound) {lease : Lease} (hl : lease ∈ q.leased) :
    Sound { q with
      leased := q.leased.filter fun other => other.delivery.token != lease.delivery.token
      deleted := q.deleted ++ [lease.delivery.message] } where
  numbers := h.numbers
  conserved := by
    rw [List.perm_iff_count]
    intro m
    have hcount := h.conserved.count_eq m
    have hmoved := (h.held_perm hl).count_eq m
    simp only [held, List.count_append, List.count_cons, List.count_nil] at hcount hmoved ⊢
    omega
  counted other ho := h.counted other (List.mem_of_mem_filter ho)
  distinct := h.distinct.sublist (List.filter_sublist.map _)

/-- A deletion takes one held message away. -/
theorem delete (h : q.Sound) (token : String) : (q.delete token).1.Sound := by
  rcases q.delete_cases token with ⟨lease, hl, rfl, hdelete⟩ | ⟨faults, e, hdelete⟩
  · rw [hdelete]
    exact h.remove hl
  · rw [hdelete]
    exact { h with }

end Sound

/-! ## Queues that come about -/

/-- A queue that comes about from an empty one. -/
inductive Reachable (visibility : Nat) : Queue → Prop
  | empty : Reachable visibility { visibility := visibility }
  | send {q} (h : Reachable visibility q) (body : Bytes) : Reachable visibility (q.send body).1
  | beginReceive {q} (h : Reachable visibility q) : Reachable visibility q.beginReceive.1
  | look {q} (h : Reachable visibility q) (now max : Nat) : Reachable visibility (q.look now max).1
  | delete {q} (h : Reachable visibility q) (token : String) :
      Reachable visibility (q.delete token).1
  | fail {q} (h : Reachable visibility q) (faults : Faults) :
      Reachable visibility { q with faults := faults }
  /-- Leases are kept in no order. -/
  | reorder {q} (h : Reachable visibility q) (leases : List Lease)
      (hperm : leases.Perm q.leased) : Reachable visibility { q with leased := leases }

theorem Sound.send {q : Queue} (h : q.Sound) (body : Bytes) : (q.send body).1.Sound := by
  rcases q.send_cases body with hsend | ⟨faults, e, hsend⟩
  · rw [hsend]
    exact h.push body
  · rw [hsend]
    exact { h with }

theorem Sound.beginReceive {q : Queue} (h : q.Sound) : q.beginReceive.1.Sound := by
  obtain ⟨faults, result, hbegin⟩ := q.beginReceive_cases
  rw [hbegin]
  exact { h with }

/-- The order of leases does not matter to their soundness. -/
theorem Sound.reorder {q : Queue} (h : q.Sound) {leases : List Lease}
    (hperm : leases.Perm q.leased) : Sound { q with leased := leases } where
  numbers := h.numbers
  conserved := (((hperm.map _).append_left _).append_right _).trans h.conserved
  counted lease hl := h.counted lease (hperm.subset hl)
  distinct := ((hperm.map _).nodup_iff).2 h.distinct

/-- Every queue that comes about is sound. -/
theorem Reachable.sound {visibility : Nat} {q : Queue} (h : Reachable visibility q) : q.Sound := by
  induction h with
  | empty => exact .empty visibility
  | send _ body ih => exact ih.send body
  | beginReceive _ ih => exact ih.beginReceive
  | look _ now max ih => exact ih.look now max
  | delete _ token ih => exact ih.delete token
  | fail _ faults ih => exact { ih with }
  | reorder _ leases hperm ih => exact ih.reorder hperm

/-- Leases run as long at all times. -/
theorem Reachable.visibility_eq {visibility : Nat} {q : Queue} (h : Reachable visibility q) :
    q.visibility = visibility := by
  induction h with
  | empty => rfl
  | @send q _ body ih =>
      rcases q.send_cases body with hsend | ⟨faults, error, hsend⟩
      · rw [hsend]
        exact ih
      · rw [hsend]
        exact ih
  | @beginReceive q _ ih =>
      obtain ⟨faults, result, hbegin⟩ := q.beginReceive_cases
      rw [hbegin]
      exact ih
  | look _ now max ih => exact ih
  | delete _ token ih => rw [visibility_delete, ih]
  | fail _ faults ih => exact ih
  | reorder _ leases hperm ih => exact ih

end ProductCatalog.Queue
