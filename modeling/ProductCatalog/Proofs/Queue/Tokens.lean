import ProductCatalog.Proofs.Queue.History

/-!
# Tokens belong to deliveries

The table of leases and the history of an exchange say the same: a lease is
kept for exactly those deliveries that are *outstanding*, unless their
message has been deleted.  A delivery is outstanding until a look comes late
enough to find its lease expired; that time alone has passed changes nothing.

## Main results

* `Exchange.Recorded.transition` — table and history stay in agreement.
* `Exchange.tokens_exclusive` — which tokens delete, and what they delete.
-/

namespace ProductCatalog

open Queue (Delivery Message Lease Transition)

/-! ## Places of messages -/

namespace Queue

namespace Sound

variable {q : Queue}

/-- No message is in two places. -/
theorem places_nodup (h : q.Sound) : (q.held ++ q.deleted).Nodup :=
  h.conserved.nodup_iff.2 h.sent_nodup

theorem held_nodup (h : q.Sound) : q.held.Nodup := (List.nodup_append.1 h.places_nodup).1

theorem visible_nodup (h : q.Sound) : q.visible.Nodup := (List.nodup_append.1 h.held_nodup).1

/-- Leases are told apart by their messages. -/
theorem eq_of_message (h : q.Sound) {lease other : Lease} (hl : lease ∈ q.leased)
    (ho : other ∈ q.leased) (hmessage : lease.delivery.message = other.delivery.message) :
    lease = other :=
  List.inj_on_of_nodup_map (List.nodup_append.1 h.held_nodup).2.1 hl ho hmessage

theorem eq_of_token (h : q.Sound) {lease other : Lease} (hl : lease ∈ q.leased)
    (ho : other ∈ q.leased) (htoken : lease.delivery.token = other.delivery.token) :
    lease = other :=
  List.inj_on_of_nodup_map h.tokens_nodup hl ho htoken

theorem not_deleted_of_leased (h : q.Sound) {lease : Lease} (hl : lease ∈ q.leased) :
    lease.delivery.message ∉ q.deleted := by
  intro hdeleted
  have hheld : lease.delivery.message ∈ q.held :=
    List.mem_append_right _ (List.mem_map_of_mem hl)
  exact (List.nodup_append.1 h.places_nodup).2.2 _ hheld _ hdeleted rfl

theorem not_visible_of_leased (h : q.Sound) {lease : Lease} (hl : lease ∈ q.leased) :
    lease.delivery.message ∉ q.visible := by
  intro hvisible
  exact (List.nodup_append.1 h.held_nodup).2.2 _ hvisible _ (List.mem_map_of_mem hl) rfl

end Sound

/-! ## The parts of a look -/

section Look

variable {q : Queue} {now max : Nat}

theorem mem_visible_reclaim {m : Message} :
    m ∈ (q.reclaim now).visible ↔ m ∈ q.visible ∨
      ∃ lease ∈ q.leased, lease.visibleAt ≤ now ∧ lease.delivery.message = m := by
  simp [reclaim, Lease.expired, and_assoc]

/-- What a look hands out is what it takes from the line. -/
theorem map_message_look (q : Queue) (now max : Nat) :
    (q.look now max).2.map Delivery.message = (q.reclaim now).visible.take max :=
  map_message_numbered _ _

/-- A look hands no message out twice. -/
theorem Sound.batch_nodup (h : q.Sound) (now max : Nat) :
    ((q.look now max).2.map Delivery.message).Nodup := by
  rw [map_message_look]
  exact (h.reclaim now).visible_nodup.sublist (List.take_sublist _ _)

theorem lease_of_mem_look {d : Delivery} (hd : d ∈ (q.look now max).2) :
    ⟨d, now + q.visibility⟩ ∈ (q.look now max).1.leased :=
  mem_leased_look_iff.2 (.inr ⟨hd, rfl⟩)

/-- A look does not hand out what is leased and not expired. -/
theorem Sound.not_handed_out (h : q.Sound) (max : Nat) {lease : Lease} (hl : lease ∈ q.leased)
    (hrunning : now < lease.visibleAt) :
    lease.delivery.message ∉ (q.look now max).2.map Delivery.message := by
  intro hmem
  obtain ⟨d, hd, heq⟩ := List.mem_map.1 hmem
  have hkept : lease ∈ (q.look now max).1.leased := mem_leased_look_iff.2 (.inl ⟨hl, hrunning⟩)
  obtain rfl := (h.look now max).eq_of_message (lease_of_mem_look hd) hkept heq
  -- the lease would be as new as the delivery
  have hold := h.counted _ hl
  have hnumber : d.number ∈ (q.look now max).2.map Delivery.number := List.mem_map_of_mem hd
  rw [map_number_look, List.mem_range'_1] at hnumber
  exact absurd hnumber.1 (Nat.not_le.2 (Nat.lt_succ_of_le hold))

end Look

end Queue

/-! ## Deliveries that are outstanding -/

namespace Exchange

/--
A delivery made at an instant is the latest one of its message, and no look
has come since that could find its lease expired.
-/
def Outstanding (visibility : Nat) (history : History) (t : Nat) (d : Delivery) : Prop :=
  ∃ before batch after, history = before ++ (t, .looked batch) :: after ∧ d ∈ batch ∧
    ∀ s later, (s, .looked later) ∈ after →
      s < t + visibility ∧ d.message ∉ later.map Delivery.message

/-- One deed more ends some deliveries and makes others. -/
theorem outstanding_snoc {visibility : Nat} {history : History} {now t : Nat} {deed : Deed}
    {d : Delivery} :
    Outstanding visibility (history ++ [(now, deed)]) t d ↔
      (Outstanding visibility history t d ∧ ∀ later, deed = .looked later →
        now < t + visibility ∧ d.message ∉ later.map Delivery.message) ∨
      (t = now ∧ d ∈ deed.batch) := by
  constructor
  · rintro ⟨before, batch, after, hsplit, hd, hlater⟩
    rcases List.eq_nil_or_concat after with rfl | ⟨after, last, rfl⟩
    · -- the deed itself has made the delivery
      obtain ⟨-, hlast⟩ := List.append_inj' hsplit rfl
      obtain ⟨rfl, rfl⟩ := Prod.mk.inj (List.singleton_inj.1 hlast)
      exact .inr ⟨rfl, hd⟩
    · rw [List.concat_eq_append, ← List.cons_append, ← List.append_assoc] at hsplit
      obtain ⟨rfl, hlast⟩ := List.append_inj' hsplit rfl
      obtain rfl := List.singleton_inj.1 hlast
      refine .inl ⟨⟨before, batch, after, rfl, hd, ?_⟩, ?_⟩
      · intro s later hs
        exact hlater s later (by simp [hs])
      · rintro later rfl
        exact hlater now later (by simp)
  · rintro (⟨⟨before, batch, after, rfl, hd, hafter⟩, hlast⟩ | ⟨rfl, hd⟩)
    · refine ⟨before, batch, after ++ [(now, deed)], by simp, hd, ?_⟩
      intro s later hs
      rcases List.mem_append.1 hs with hs | hs
      · exact hafter s later hs
      · obtain ⟨rfl, rfl⟩ := Prod.mk.inj (List.mem_singleton.1 hs)
        exact hlast later rfl
    · cases deed with
      | looked batch => exact ⟨history, batch, [], rfl, hd, nofun⟩
      | sent body => exact absurd hd List.not_mem_nil
      | deleted token => exact absurd hd List.not_mem_nil

/-- An outstanding delivery has been made. -/
theorem Outstanding.mem_deliveries {visibility t : Nat} {history : History} {d : Delivery}
    (h : Outstanding visibility history t d) : (t, d) ∈ deliveries history := by
  obtain ⟨before, batch, after, rfl, hd, -⟩ := h
  refine List.mem_flatMap.2 ⟨(t, .looked batch), by simp, ?_⟩
  exact List.mem_map_of_mem hd

/-! ## Table and history -/

/-- What the history of an exchange tells agrees with its queue. -/
structure Recorded (visibility : Nat) (history : History) (now : Nat) (q : Queue) : Prop where
  sound : q.Sound
  span : q.visibility = visibility
  /-- Deliveries are numbered one after another. -/
  numbers : (deliveries history).map (·.2.number) = List.range' 1 q.deliveries
  past : ∀ x ∈ deliveries history, x.1 ≤ now
  known : ∀ x ∈ deliveries history, x.2.message ∈ q.sent
  spaced : (deliveries history).Pairwise fun x y =>
    x.2.message = y.2.message → x.1 + visibility ≤ y.1
  /-- A message in line may be delivered again. -/
  due : ∀ m ∈ q.visible, ∀ x ∈ deliveries history, x.2.message = m → x.1 + visibility ≤ now
  latest : ∀ lease ∈ q.leased, ∀ x ∈ deliveries history,
    x.2.message = lease.delivery.message →
      x.1 + visibility ≤ lease.visibleAt ∧ x.2.number ≤ lease.delivery.number
  leased : ∀ lease, lease ∈ q.leased ↔ ∃ t, lease.visibleAt = t + visibility ∧
    Outstanding visibility history t lease.delivery ∧ lease.delivery.message ∉ q.deleted

namespace Recorded

variable {visibility now : Nat} {history : History} {q : Queue}

theorem empty (visibility : Nat) : Recorded visibility [] 0 { visibility := visibility } where
  sound := .empty visibility
  span := rfl
  numbers := rfl
  past := nofun
  known := nofun
  spaced := .nil
  due := nofun
  latest := nofun
  leased lease := by
    refine ⟨nofun, ?_⟩
    rintro ⟨t, -, hout, -⟩
    exact absurd hout.mem_deliveries List.not_mem_nil

/-- Nothing is wrong after some time that has not been before. -/
theorem later (h : Recorded visibility history now q) {now' : Nat} (hle : now ≤ now') :
    Recorded visibility history now' q :=
  { h with
    past := fun x hx => Nat.le_trans (h.past x hx) hle
    due := fun m hm x hx heq => Nat.le_trans (h.due m hm x hx heq) hle }

/-- The delivery with a number is one. -/
theorem eq_of_number (h : Recorded visibility history now q) {x y : Nat × Delivery}
    (hx : x ∈ deliveries history) (hy : y ∈ deliveries history)
    (hnumber : x.2.number = y.2.number) : x = y := by
  have hnodup : ((deliveries history).map (·.2.number)).Nodup := h.numbers ▸ List.nodup_range'
  exact List.inj_on_of_nodup_map hnodup hx hy hnumber

theorem number_le (h : Recorded visibility history now q) {x : Nat × Delivery}
    (hx : x ∈ deliveries history) : x.2.number ≤ q.deliveries := by
  have hmem : x.2.number ∈ (deliveries history).map (·.2.number) := List.mem_map_of_mem hx
  rw [h.numbers, List.mem_range'_1] at hmem
  omega

/-- Leases may be kept in any order, and counts do not matter. -/
theorem rested (h : Recorded visibility history now q) {leases : List Lease} {receives : Nat}
    {faults : Queue.Faults} (hperm : leases.Perm q.leased) :
    Recorded visibility history now
      { q with leased := leases, receives := receives, faults := faults } :=
  { h with
    sound := { h.sound.reorder hperm with }
    latest := fun lease hl => h.latest lease (hperm.subset hl)
    leased := fun lease => hperm.mem_iff.trans (h.leased lease) }

/-- A message that is sent has never been delivered. -/
theorem fresh (h : Recorded visibility history now q) (body : Text.Bytes) :
    ∀ x ∈ deliveries history, x.2.message ≠ ⟨q.sent.length + 1, body⟩ := by
  intro x hx heq
  have hall : (q.sent ++ [(⟨q.sent.length + 1, body⟩ : Message)]).Nodup :=
    (h.sound.push body).sent_nodup
  exact (List.nodup_append.1 hall).2.2 _ (heq ▸ h.known x hx) _ (List.mem_singleton_self _) rfl

theorem push (h : Recorded visibility history now q) (body : Text.Bytes) :
    Recorded visibility history now (q.push body) := by
  have hnew := h.fresh body
  refine { h with sound := h.sound.push body, known := ?_, due := ?_ }
  · exact fun x hx => List.mem_append_left _ (h.known x hx)
  · intro m hm x hx heq
    rcases List.mem_append.1 hm with hold | hsent
    · exact h.due m hold x hx heq
    · exact absurd (heq.trans (List.mem_singleton.1 hsent)) (hnew x hx)

/-- A deletion ends one lease, and the lease of no other message. -/
theorem remove (h : Recorded visibility history now q) {lease : Lease} (hl : lease ∈ q.leased) :
    Recorded visibility history now { q with
      leased := q.leased.filter fun other => other.delivery.token != lease.delivery.token
      deleted := q.deleted ++ [lease.delivery.message] } := by
  refine { h with sound := h.sound.remove hl, latest := ?_, leased := ?_ }
  · exact fun other ho => h.latest other (List.mem_of_mem_filter ho)
  · intro other
    simp only [List.mem_filter, bne_iff_ne, List.mem_append, List.mem_singleton, not_or]
    constructor
    · rintro ⟨ho, htoken⟩
      obtain ⟨t, htime, hout, hdeleted⟩ := (h.leased other).1 ho
      refine ⟨t, htime, hout, hdeleted, ?_⟩
      intro hmessage
      obtain rfl := h.sound.eq_of_message ho hl hmessage
      exact htoken rfl
    · rintro ⟨t, htime, hout, hdeleted, hmessage⟩
      have ho := (h.leased other).2 ⟨t, htime, hout, hdeleted⟩
      refine ⟨ho, ?_⟩
      intro htoken
      exact hmessage (by rw [h.sound.eq_of_token ho hl htoken])

/-- A deed that is no look concerns no delivery. -/
theorem note (h : Recorded visibility history now q) {deed : Deed}
    (hdeed : ∀ batch, deed ≠ .looked batch) :
    Recorded visibility (history ++ [(now, deed)]) now q := by
  have hbatch : deed.batch = [] := by
    cases deed with
    | looked batch => exact absurd rfl (hdeed batch)
    | sent | deleted => rfl
  have hsame : deliveries (history ++ [(now, deed)]) = deliveries history := by
    rw [deliveries_append, deliveries_singleton, hbatch]
    exact List.append_nil _
  have hout : ∀ t d, Outstanding visibility (history ++ [(now, deed)]) t d ↔
      Outstanding visibility history t d := by
    intro t d
    rw [outstanding_snoc, hbatch]
    simp [hdeed]
  refine ⟨h.sound, h.span, ?_, ?_, ?_, ?_, ?_, ?_, ?_⟩
  · exact hsame ▸ h.numbers
  · exact hsame ▸ h.past
  · exact hsame ▸ h.known
  · exact hsame ▸ h.spaced
  · exact hsame ▸ h.due
  · exact hsame ▸ h.latest
  · intro lease
    simp only [hout]
    exact h.leased lease

/-- Whatever a look finds in line may be delivered again. -/
private theorem due_reclaim (h : Recorded visibility history now q) {m : Message}
    (hm : m ∈ (q.reclaim now).visible) {x : Nat × Delivery} (hx : x ∈ deliveries history)
    (heq : x.2.message = m) : x.1 + visibility ≤ now := by
  rcases Queue.mem_visible_reclaim.1 hm with hold | ⟨lease, hl, hexpired, rfl⟩
  · exact h.due m hold x hx heq
  · exact Nat.le_trans (h.latest lease hl x hx heq).1 hexpired

/-- A look delivers messages of which every earlier delivery is over. -/
theorem looked (h : Recorded visibility history now q) (max : Nat) :
    Recorded visibility (history ++ [(now, .looked (q.look now max).2)]) now
      (q.look now max).1 := by
  have hsound := h.sound.look now max
  have hnodup := h.sound.batch_nodup now max
  have hnew : ∀ d ∈ (q.look now max).2,
      (⟨d, now + q.visibility⟩ : Lease) ∈ (q.look now max).1.leased :=
    fun d hd => Queue.lease_of_mem_look hd
  have hline : ∀ d ∈ (q.look now max).2, d.message ∈ (q.reclaim now).visible := by
    intro d hd
    have hmem := List.mem_map_of_mem (f := Delivery.message) hd
    rw [Queue.map_message_look] at hmem
    exact List.mem_of_mem_take hmem
  have hbatch : deliveries (history ++ [(now, .looked (q.look now max).2)]) =
      deliveries history ++ (q.look now max).2.map (Prod.mk now) := by
    rw [deliveries_append, deliveries_singleton]
    rfl
  refine ⟨hsound, h.span, ?_, ?_, ?_, ?_, ?_, ?_, ?_⟩
  · rw [hbatch, List.map_append, h.numbers, List.map_map]
    have hnumbers := Queue.map_number_look q now max
    show _ ++ (q.look now max).2.map Delivery.number = List.range' 1 (q.deliveries + _)
    rw [hnumbers, Nat.add_comm q.deliveries 1, List.range'_append_1]
    rfl
  · rw [hbatch]
    intro x hx
    rcases List.mem_append.1 hx with hold | hin
    · exact h.past x hold
    · obtain ⟨d, -, rfl⟩ := List.mem_map.1 hin
      exact Nat.le_refl _
  · rw [hbatch]
    intro x hx
    rcases List.mem_append.1 hx with hold | hin
    · exact h.known x hold
    · obtain ⟨d, hd, rfl⟩ := List.mem_map.1 hin
      exact (h.sound.reclaim now).conserved.subset
        (List.mem_append_left _ (List.mem_append_left _ (hline d hd)))
  · rw [hbatch, List.pairwise_append]
    refine ⟨h.spaced, ?_, ?_⟩
    · rw [List.pairwise_map]
      exact (List.pairwise_map.1 hnodup).imp fun hne heq => absurd heq hne
    · intro x hx y hy heq
      obtain ⟨d, hd, rfl⟩ := List.mem_map.1 hy
      exact h.due_reclaim (hline d hd) hx heq
  · rw [hbatch]
    intro m hm x hx heq
    have hrest : m ∈ (q.reclaim now).visible := List.mem_of_mem_drop hm
    rcases List.mem_append.1 hx with hold | hin
    · exact h.due_reclaim hrest hold heq
    · -- what has been handed out is no longer in line
      obtain ⟨d, hd, rfl⟩ := List.mem_map.1 hin
      exact absurd (heq ▸ hm) (hsound.not_visible_of_leased (hnew d hd))
  · rw [hbatch]
    intro lease hl x hx heq
    rcases Queue.mem_leased_look_iff.1 hl with ⟨hkept, hrunning⟩ | ⟨hd, htime⟩
    · rcases List.mem_append.1 hx with hold | hin
      · exact h.latest lease hkept x hold heq
      · obtain ⟨d, hd, rfl⟩ := List.mem_map.1 hin
        have hmem : d.message ∈ (q.look now max).2.map Delivery.message := List.mem_map_of_mem hd
        exact absurd (heq ▸ hmem) (h.sound.not_handed_out max hkept hrunning)
    · rcases List.mem_append.1 hx with hold | hin
      · have hbefore := h.number_le hold
        have hafter : lease.delivery.number ∈ (q.look now max).2.map Delivery.number :=
          List.mem_map_of_mem hd
        rw [Queue.map_number_look, List.mem_range'_1] at hafter
        have hpast := h.past x hold
        rw [htime, h.span]
        omega
      · obtain ⟨d, hin', rfl⟩ := List.mem_map.1 hin
        have hsame : d = lease.delivery := List.inj_on_of_nodup_map hnodup hin' hd heq
        rw [htime, h.span, hsame]
        exact ⟨Nat.le_refl _, Nat.le_refl _⟩
  · intro lease
    rw [Queue.mem_leased_look_iff]
    simp only [outstanding_snoc, Deed.looked.injEq, forall_eq', Deed.batch]
    constructor
    · rintro (⟨hkept, hrunning⟩ | ⟨hd, htime⟩)
      · obtain ⟨t, htime, hout, hdeleted⟩ := (h.leased lease).1 hkept
        have hnot := h.sound.not_handed_out max hkept hrunning
        exact ⟨t, htime, .inl ⟨hout, by omega, hnot⟩, hdeleted⟩
      · refine ⟨now, by rw [htime, h.span], .inr ⟨rfl, hd⟩, ?_⟩
        exact hsound.not_deleted_of_leased (Queue.mem_leased_look_iff.2 (.inr ⟨hd, htime⟩))
    · rintro ⟨t, htime, ⟨hout, hrunning, -⟩ | ⟨rfl, hd⟩, hdeleted⟩
      · exact .inl ⟨(h.leased lease).2 ⟨t, htime, hout, hdeleted⟩, by omega⟩
      · exact .inr ⟨hd, by rw [htime, h.span]⟩

/-- Whatever happens to a queue, its history agrees with it. -/
theorem transition {q' : Queue} {deeds : List Deed} (h : Recorded visibility history now q)
    (ht : Transition q now deeds q') :
    Recorded visibility (history ++ deeds.map (Prod.mk now)) now q' := by
  cases ht with
  | rested hperm =>
      rw [List.map_nil, List.append_nil]
      exact h.rested hperm
  | sent body => exact (h.push body).note nofun
  | looked max => exact (h.looked max).rested (.refl _)
  | deleted hl => exact (h.remove hl).note nofun

end Recorded

theorem Runs.recorded {visibility : Nat} {history : History} {x : Exchange}
    (h : Runs (empty visibility) history x) : Recorded visibility history x.now x.queue := by
  induction h with
  | refl => exact .empty visibility
  | move _ hmove ih =>
      obtain ⟨htransition, hle⟩ := hmove.transition
      exact (ih.transition htransition).later hle

/-! ## Tokens -/

namespace Recorded

variable {visibility now : Nat} {history : History} {q : Queue}

/-- No token is handed out twice. -/
theorem tokens_nodup (h : Recorded visibility history now q) :
    ((deliveries history).map (·.2.token)).Nodup := by
  have hnumbers : ((deliveries history).map (·.2.number)).Nodup := h.numbers ▸ List.nodup_range'
  rw [List.nodup_map_iff_inj_on hnumbers.of_map]
  intro x hx y hy htoken
  exact h.eq_of_number hx hy (Queue.token_inj htoken).2

/-- The token of a lease is that of its delivery and of no other. -/
theorem delivery_of_token (h : Recorded visibility history now q) {lease : Lease}
    (hl : lease ∈ q.leased) {y : Nat × Delivery} (hy : y ∈ deliveries history)
    (htoken : lease.delivery.token = y.2.token) : lease.delivery = y.2 := by
  obtain ⟨t, -, hout, -⟩ := (h.leased lease).1 hl
  exact congrArg Prod.snd (h.eq_of_number hout.mem_deliveries hy (Queue.token_inj htoken).2)

/-- A token that is leased is that of an outstanding delivery, and the other way round. -/
theorem exists_lease_iff (h : Recorded visibility history now q) (token : String) :
    (∃ lease ∈ q.leased, lease.delivery.token = token) ↔ ∃ t d, d.token = token ∧
      Outstanding visibility history t d ∧ d.message ∉ q.deleted := by
  constructor
  · rintro ⟨lease, hl, rfl⟩
    obtain ⟨t, -, hout, hdeleted⟩ := (h.leased lease).1 hl
    exact ⟨t, lease.delivery, rfl, hout, hdeleted⟩
  · rintro ⟨t, d, rfl, hout, hdeleted⟩
    exact ⟨⟨d, t + visibility⟩, (h.leased _).2 ⟨t, rfl, hout, hdeleted⟩, rfl⟩

/-- No lease has the token of a delivery that is over. -/
theorem not_leased_of_over (h : Recorded visibility history now q) {y : Nat × Delivery}
    (hy : y ∈ deliveries history)
    (hover : (∃ z ∈ deliveries history, z.2.message = y.2.message ∧ y.2.number < z.2.number) ∨
      y.2.message ∈ q.deleted) :
    ∀ lease ∈ q.leased, lease.delivery.token ≠ y.2.token := by
  intro lease hl htoken
  have hdelivery := h.delivery_of_token hl hy htoken
  rcases hover with ⟨z, hz, hmessage, hnumber⟩ | hdeleted
  · have hlatest := (h.latest lease hl z hz (hdelivery ▸ hmessage)).2
    rw [hdelivery] at hlatest
    omega
  · exact h.sound.not_deleted_of_leased hl (hdelivery ▸ hdeleted)

end Recorded

end Exchange

namespace Queue

/-- Unless it is told to fail, a deletion succeeds for the tokens that are leased. -/
theorem delete_ok_iff {q : Queue} (hfaults : q.faults.deletes = 0) (token : String) :
    (q.delete token).2 = .ok () ↔ ∃ lease ∈ q.leased, lease.delivery.token = token := by
  unfold delete
  rw [hfaults]
  simp only
  cases hlease : q.leaseOf? token with
  | none =>
      rw [leaseOf?, List.find?_eq_none] at hlease
      simp only [decide_eq_true_eq] at hlease
      simpa using hlease
  | some lease =>
      have htoken : lease.delivery.token = token := by simpa using List.find?_some hlease
      simpa using ⟨lease, List.mem_of_find?_eq_some hlease, htoken⟩

/-- A token that is leased is refused only if the queue has been told to fail. -/
theorem delete_error_of_leased {q : Queue} {lease : Lease} (hl : lease ∈ q.leased)
    {error : TransportError} (h : (q.delete lease.delivery.token).2 = .error error) :
    error = .delete "injected delete failure" := by
  cases hfaults : q.faults.deletes with
  | zero =>
      have hok := (delete_ok_iff hfaults _).2 ⟨lease, hl, rfl⟩
      cases hok.symm.trans h
  | succ n =>
      simp only [delete, hfaults] at h
      exact (Except.error.inj h).symm

theorem Transition.deleted_subset {q q' : Queue} {now : Nat} {deeds : List Exchange.Deed}
    (h : Transition q now deeds q') : q.deleted ⊆ q'.deleted := by
  cases h with
  | rested | sent | looked => exact List.Subset.refl _
  | deleted => exact List.subset_append_left ..

/-- A deletion without a lease fails. -/
theorem delete_of_not_leased {q : Queue} {token : String}
    (h : ∀ lease ∈ q.leased, lease.delivery.token ≠ token) :
    ∃ error, q.delete token = ({ q with
      faults := { q.faults with deletes := q.faults.deletes - 1 } }, .error error) := by
  rcases q.delete_cases token with ⟨lease, hl, htoken, -⟩ | ⟨faults, error, hdelete⟩
  · exact absurd htoken (h lease hl)
  · have hfailed : (q.delete token).2 = .error error := congrArg Prod.snd hdelete
    exact ⟨error, Prod.ext (delete_error hfailed) hfailed⟩

end Queue

namespace Exchange

variable {visibility : Nat} {history more : History} {x x' : Exchange}

/-- What has been deleted stays so. -/
private theorem Runs.mem_deleted (h : Runs x more x') {m : Message} (hm : m ∈ x.queue.deleted) :
    m ∈ x'.queue.deleted := by
  induction h with
  | refl => exact hm
  | move _ hmove ih => exact hmove.transition.1.deleted_subset ih

/--
No token is handed out twice, and no message again before its lease has run
out.  A deletion that is not told to fail succeeds if and only if its token
is that of a delivery still outstanding, whose message has not been deleted;
it then removes the message of that delivery and nothing else.  The token of
an earlier delivery, or of a message that has been deleted, fails from then
on and changes nothing.
-/
theorem tokens_exclusive (h : Runs (empty visibility) history x) :
    ((deliveries history).map (·.2.token)).Nodup ∧
      ((deliveries history).Pairwise fun y z =>
        y.2.message = z.2.message → y.1 + visibility ≤ z.1) ∧
      (x.queue.faults.deletes = 0 → ∀ token, (x.queue.delete token).2 = .ok () ↔
        ∃ t d, d.token = token ∧ Outstanding visibility history t d ∧
          d.message ∉ x.queue.deleted) ∧
      (∀ y ∈ deliveries history, (x.queue.delete y.2.token).2 = .ok () →
        (x.queue.delete y.2.token).1 = { x.queue with
          leased := x.queue.leased.filter fun lease => lease.delivery.token != y.2.token
          deleted := x.queue.deleted ++ [y.2.message] } ∧
        x.queue.held.Perm (y.2.message :: (x.queue.delete y.2.token).1.held)) ∧
      ∀ y ∈ deliveries history,
        (∃ z ∈ deliveries history, z.2.message = y.2.message ∧ y.2.number < z.2.number) ∨
          y.2.message ∈ x.queue.deleted →
        ∀ more x', Runs x more x' → ∃ error, x'.queue.delete y.2.token = ({ x'.queue with
          faults := { x'.queue.faults with deletes := x'.queue.faults.deletes - 1 } },
          .error error) := by
  have hrecorded := h.recorded
  refine ⟨hrecorded.tokens_nodup, hrecorded.spaced, ?_, ?_, ?_⟩
  · intro hfaults token
    exact (Queue.delete_ok_iff hfaults token).trans (hrecorded.exists_lease_iff token)
  · intro y hy hok
    rcases x.queue.delete_cases y.2.token with ⟨lease, hl, htoken, hdelete⟩ | ⟨_, _, hdelete⟩
    · have hdelivery := hrecorded.delivery_of_token hl hy htoken
      have hheld := hrecorded.sound.held_perm hl
      rw [hdelivery] at hheld hdelete
      rw [hdelete]
      exact ⟨rfl, hheld⟩
    · rw [hdelete] at hok
      cases hok
  · intro y hy hover more x' hmore
    have hlater : Runs (empty visibility) (history ++ more) x' := h.trans hmore
    have hmade : ∀ z ∈ deliveries history, z ∈ deliveries (history ++ more) := by
      intro z hz
      rw [deliveries_append]
      exact List.mem_append_left _ hz
    refine Queue.delete_of_not_leased (hlater.recorded.not_leased_of_over (hmade y hy) ?_)
    rcases hover with ⟨z, hz, hmessage, hnumber⟩ | hdeleted
    · exact .inl ⟨z, hmade z hz, hmessage, hnumber⟩
    · exact .inr (hmore.mem_deleted hdeleted)

/-- The second delivery of a message has expired unnoticed: its token deletes, the first never. -/
theorem tokens_exclusive_of_redelivery :
    ∃ history x, Runs (empty 20) history x ∧ x.now = 90 ∧
      deliveries history = [(0, ⟨⟨1, [7]⟩, 1⟩), (30, ⟨⟨1, [7]⟩, 2⟩)] ∧
      (∃ t d, d.token = Queue.token 1 2 ∧ Outstanding 20 history t d ∧
        d.message ∉ x.queue.deleted) ∧
      ∀ more x', Runs x more x' → ∃ error, x'.queue.delete (Queue.token 1 1) = ({ x'.queue with
        faults := { x'.queue.faults with deletes := x'.queue.faults.deletes - 1 } },
        .error error) := by
  have hsent : Runs (empty 20) _ _ := .move .refl (.send [7])
  have hfirst := (hsent.move (.begin 1 0)).move (.pass 30)
  have hsecond := (hfirst.move (.begin 1 0)).move (.pass 90)
  obtain ⟨history, x, hruns, hnow, hmade, hfaults, hok⟩ :
      ∃ history x, Runs (empty 20) history x ∧ x.now = 90 ∧
        deliveries history = [(0, ⟨⟨1, [7]⟩, 1⟩), (30, ⟨⟨1, [7]⟩, 2⟩)] ∧
        x.queue.faults.deletes = 0 ∧ (x.queue.delete (Queue.token 1 2)).2 = .ok () :=
    ⟨_, _, hsecond, by decide, by decide, by decide, by decide +kernel⟩
  obtain ⟨-, -, hdelete, -, hover⟩ := tokens_exclusive hruns
  refine ⟨history, x, hruns, hnow, hmade, (hdelete hfaults _).1 hok, ?_⟩
  have hfirst : (0, ⟨⟨1, [7]⟩, 1⟩) ∈ deliveries history := by
    rw [hmade]
    exact List.mem_cons_self
  refine hover _ hfirst (.inl ⟨(30, ⟨⟨1, [7]⟩, 2⟩), ?_, rfl, by decide⟩)
  rw [hmade]
  exact List.mem_cons_of_mem _ (List.mem_singleton_self _)

end Exchange

end ProductCatalog
