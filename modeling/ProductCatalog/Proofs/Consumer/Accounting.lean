import ProductCatalog.Proofs.Consumer.Books

/-!
# No message is lost and no delivery is left out

What the books say at every point of a run, and at its end.

## Main results

* `messages_kept` — a message stays with the queue until a task that was
  entitled to it has removed it.
* `deliveries_accounted` — when the run is over, every delivery made to it
  has been counted once, as its task has ended.
-/

namespace ProductCatalog.Consumer

open Queue (Delivery Message Lease)

variable {visibility : Nat} {c₀ c : Consumer}

/-- A message that is not held has been removed once, and one that is held has not. -/
theorem count_held_removals (h : Books c₀ c) {m : Message} (hsent : m ∈ c.queue.sent)
    (hbefore : m ∉ c₀.queue.deleted) :
    c.queue.held.count m + (removals c.history).count m = 1 := by
  have hall := h.queue.conserved.count_eq m
  have honce := List.count_eq_one_of_mem h.queue.sent_nodup hsent
  have hnone := List.count_eq_zero_of_not_mem hbefore
  rw [h.removed, List.count_append, List.count_append] at hall
  omega

/-- The trail of a delivery tells of its deletion if the history does. -/
theorem mem_trail {history : List (Nat × Incident)} {x : Nat × Incident} {d : Delivery} :
    x ∈ trail history d ↔ x ∈ history ∧ x.2.about? = some d := by
  rw [trail, List.mem_filter, decide_eq_true_iff]

theorem mem_removals {history : List (Nat × Incident)} {m : Message} :
    m ∈ removals history ↔ ∃ t d, (t, .deleted d) ∈ history ∧ d.message = m := by
  constructor
  · intro hmem
    obtain ⟨⟨t, i⟩, hi, hremoval⟩ := List.mem_filterMap.1 hmem
    cases i with
    | deleted d => exact ⟨t, d, hi, Option.some.inj hremoval⟩
    | _ => cases hremoval
  · rintro ⟨t, d, hi, rfl⟩
    exact List.mem_filterMap.2 ⟨_, hi, rfl⟩

/-- Only what has been received has a task that the history could tell of. -/
theorem Books.mem_received_of_about (h : Books c₀ c) {x : Nat × Incident} {d : Delivery}
    (hx : x ∈ c.history) (habout : x.2.about? = some d) : d ∈ received c.history := by
  by_contra hnot
  have htrail : x ∈ trail c.history d := mem_trail.2 ⟨hx, habout⟩
  rw [h.unheard d hnot] at htrail
  exact absurd htrail List.not_mem_nil

/-- Every delivery that the history tells of has a course. -/
private theorem exists_course (h : Orderly c₀ c) {d : Delivery} (hd : d ∈ received c.history) :
    ∃ leg, Course c₀.settings c₀.handlers d leg (trail c.history d) := by
  rcases List.mem_append.1 (h.books.assigned.symm.subset hd) with hrunning | hover
  · obtain ⟨task, htask, rfl⟩ := List.mem_map.1 hrunning
    obtain ⟨leg, -, hcourse⟩ := h.waiting task htask
    exact ⟨leg, hcourse⟩
  · obtain ⟨x, hx, rfl⟩ := List.mem_map.1 hover
    exact ⟨.done x.2, h.books.done x hx⟩

/--
No message is lost: whatever a consumer does and whatever is done to it, a
message that has been sent is held by the queue or has been removed by one
deletion.  A deletion has removed its message only after the body of that
very delivery turned out to be no event, or its event to be nobody's, or
its handler had succeeded in time.
-/
theorem messages_kept (hfresh : c₀.Fresh) (hqueue : Queue.Reachable visibility c₀.queue)
    (h : Runs c₀ c) :
    c.queue.deleted = c₀.queue.deleted ++ removals c.history ∧
      (∀ m ∈ c.queue.sent, m ∉ c₀.queue.deleted →
        c.queue.held.count m + (removals c.history).count m = 1) ∧
      ∀ t d, (t, .deleted d) ∈ c.history → ∃ grounds since,
        Warrant c₀.settings c₀.handlers d grounds ∧
          trail c.history d = grounds ++ [(since, .deleteCalled d), (t, .deleted d)] := by
  have horderly := h.orderly hfresh hqueue.sound
  refine ⟨horderly.books.removed, ?_, ?_⟩
  · intro m hsent hbefore
    exact count_held_removals horderly.books hsent hbefore
  · intro t d hdeleted
    have htrail : (t, .deleted d) ∈ trail c.history d := mem_trail.2 ⟨hdeleted, rfl⟩
    have hreceived : d ∈ received c.history := by
      by_contra hnot
      rw [horderly.books.unheard d hnot] at htrail
      exact absurd htrail List.not_mem_nil
    obtain ⟨leg, hcourse⟩ := exists_course horderly hreceived
    exact hcourse.deleted_cases htrail

/-- A message that is no event is received and removed. -/
theorem messages_kept_of_undecodable :
    ∃ c, Runs { queue := { visibility := 30000 } } c ∧ c.queue.sent = [⟨1, []⟩] ∧
      c.queue.held.count ⟨1, []⟩ + (removals c.history).count ⟨1, []⟩ = 1 ∧
      ∃ t grounds since, Warrant {} {} ⟨⟨1, []⟩, 1⟩ grounds ∧
        trail c.history ⟨⟨1, []⟩, 1⟩ =
          grounds ++ [(since, .deleteCalled ⟨⟨1, []⟩, 1⟩), (t, .deleted ⟨⟨1, []⟩, 1⟩)] := by
  have hsent : Runs { queue := { visibility := 30000 } } _ := .move .refl (.send [])
  have hstarted := (hsent.move .start).move (.turn .loop (by decide))
  have hreceived := hstarted.move (.turn .loop (by decide))
  have hremoved := hreceived.move (.turn (.task 1) (by decide))
  obtain ⟨c, hruns, hqueue, hhistory⟩ : ∃ c, Runs { queue := { visibility := 30000 } } c ∧
      c.queue.sent = [⟨1, []⟩] ∧ (c.history.any fun x =>
        x.2.removal?.isSome && x.2.about? = some ⟨⟨1, []⟩, 1⟩) :=
    ⟨_, hremoved, by decide +kernel, by decide +kernel⟩
  obtain ⟨⟨t, i⟩, hmem, hi⟩ := List.any_eq_true.1 hhistory
  have hdeleted : i = .deleted ⟨⟨1, []⟩, 1⟩ := by
    cases i with
    | deleted d => simpa [Incident.removal?, Incident.about?] using hi
    | _ => simp [Incident.removal?] at hi
  subst hdeleted
  have hfresh : Fresh { queue := { visibility := 30000 } } := ⟨rfl, rfl, rfl, rfl, rfl, rfl⟩
  obtain ⟨-, hcount, hgrounds⟩ := messages_kept hfresh .empty hruns
  refine ⟨c, hruns, hqueue, ?_, t, hgrounds t _ hmem⟩
  refine hcount _ ?_ List.not_mem_nil
  rw [hqueue]
  exact List.mem_singleton_self _

/-- Every count adds one to the total. -/
private theorem total_foldl (endings : List Ending) (r : Report) :
    (endings.foldl Report.count r).total = r.total + endings.length := by
  induction endings generalizing r with
  | nil => rfl
  | cons ending rest ih =>
      rw [List.foldl_cons, ih, Report.total_count, List.length_cons]
      omega

/-- A report counts the tasks that have ended in each of the four ways. -/
private theorem foldl_count (xs : List (Delivery × Ending)) (r : Report) :
    (xs.map (·.2)).foldl Report.count r =
      { completed := r.completed + xs.countP (·.2 = .completed)
        discarded := r.discarded + xs.countP (·.2 = .discarded)
        redelivered := r.redelivered + xs.countP (·.2 = .redelivered)
        crashed := r.crashed + xs.countP (·.2 = .crashed) } := by
  induction xs generalizing r with
  | nil => rfl
  | cons x rest ih =>
      obtain ⟨d, ending⟩ := x
      rw [List.map_cons, List.foldl_cons, ih]
      cases ending <;> simp [Report.count, Nat.add_assoc, Nat.add_comm 1]

/--
When a run is over, every delivery made to it has been counted once and as
its own task has ended: the report numbers the tasks that have ended in each
of the four ways, and no task is left.  A message that is still
leased for one of these deliveries is one that its task has left to
redelivery, or that it has tried in vain to delete.
-/
theorem deliveries_accounted (hfresh : c₀.Fresh) (hqueue : Queue.Reachable visibility c₀.queue)
    (h : Runs c₀ c) (hstopped : c.phase = .stopped) :
    c.queue.deliveries = c₀.queue.deliveries + c.report.total ∧
      (received c.history).map (·.number) =
        List.range' (c₀.queue.deliveries + 1) c.report.total ∧
      ((counts c.history).map (·.1)).Perm (received c.history) ∧
      (c.report.completed = (counts c.history).countP (·.2 = .completed) ∧
        c.report.discarded = (counts c.history).countP (·.2 = .discarded) ∧
        c.report.redelivered = (counts c.history).countP (·.2 = .redelivered) ∧
        c.report.crashed = (counts c.history).countP (·.2 = .crashed)) ∧
      (∀ x ∈ counts c.history,
        Course c₀.settings c₀.handlers x.1 (.done x.2) (trail c.history x.1)) ∧
      c.tasks = [] ∧ c.ended = [] ∧
      ∀ lease ∈ c.queue.leased, c₀.queue.deliveries < lease.delivery.number →
        ∃ ending, (lease.delivery, ending) ∈ counts c.history ∧
          (ending = .redelivered ∨ ending = .crashed ∨
            (∃ t error, (t, .deleteFailed lease.delivery error) ∈ c.history) ∨
            ∃ t, (t, .deleteTimedOut lease.delivery) ∈ c.history) := by
  have horderly := h.orderly hfresh hqueue.sound
  have hbooks := horderly.books
  obtain ⟨htasks, hended⟩ := horderly.closed hstopped
  have hcounted : ((counts c.history).map (·.1)).Perm (received c.history) := by
    have hassigned := hbooks.assigned
    rwa [htasks, hended] at hassigned
  have htotal : c.report.total = (received c.history).length := by
    rw [hbooks.report, total_foldl, ← hcounted.length_eq, List.length_map, List.length_map]
    exact Nat.zero_add _
  have hkinds := hbooks.report.trans (foldl_count _ _)
  have hover : ∀ x ∈ counts c.history,
      Course c₀.settings c₀.handlers x.1 (.done x.2) (trail c.history x.1) :=
    fun x hx => hbooks.done x (List.mem_append_right _ hx)
  refine ⟨?_, ?_, hcounted, ?_, hover, htasks, hended, ?_⟩
  · rw [htotal]
    exact hbooks.deliveries
  · rw [htotal]
    exact hbooks.numbers
  · rw [hkinds]
    exact ⟨Nat.zero_add _, Nat.zero_add _, Nat.zero_add _, Nat.zero_add _⟩
  · intro lease hl hnumber
    rcases hbooks.leased lease hl with hold | ⟨hmem, hnot⟩
    · omega
    · obtain ⟨⟨d, ending⟩, hx, rfl⟩ := List.mem_map.1 (hcounted.symm.subset hmem)
      refine ⟨ending, hx, ?_⟩
      rcases (hover _ hx).done_cases with
        hleft | hcrashed | ⟨t, hdeleted⟩ | ⟨t, error, hfailed⟩ | ⟨t, hgivenUp⟩
      · exact .inl hleft
      · exact .inr (.inl hcrashed)
      · exact absurd hdeleted (hnot t)
      · exact .inr (.inr (.inl ⟨t, error, (mem_trail.1 hfailed).1⟩))
      · exact .inr (.inr (.inr ⟨t, (mem_trail.1 hgivenUp).1⟩))

/-- A consumer whose only handler always fails. -/
private def refusing : Consumer where
  handlers := { created := some { reaction := fun _ _ => { outcome := .failed "busy" } } }
  queue := { visibility := 30000 }

/-- A handler fails, and its message is still leased when the run is over. -/
theorem deliveries_accounted_of_failure :
    ∃ c, Runs refusing c ∧ c.phase = .stopped ∧ c.report = { redelivered := 1 } ∧
      ∃ lease ∈ c.queue.leased, ∃ ending, (lease.delivery, ending) ∈ counts c.history ∧
        (ending = .redelivered ∨ ending = .crashed ∨
          (∃ t error, (t, .deleteFailed lease.delivery error) ∈ c.history) ∨
          ∃ t, (t, .deleteTimedOut lease.delivery) ∈ c.history) := by
  have hsent : Runs refusing _ := .move .refl (.publish ⟨.created, .timed 0 0⟩)
  have hstarted := (hsent.move .start).move (.turn .loop (by decide +kernel))
  have hreceived := hstarted.move (.turn .loop (by decide +kernel))
  have hfailed := hreceived.move (.turn (.task 1) (by decide +kernel))
  have hdraining := (hfailed.move .stop).move (.turn .loop (by decide +kernel))
  have hstopped := hdraining.move (.turn .loop (by decide +kernel))
  obtain ⟨c, hruns, hphase, hreport, hleased⟩ : ∃ c, Runs refusing c ∧ c.phase = .stopped ∧
      c.report = { redelivered := 1 } ∧ c.queue.leased.map (·.delivery.number) = [1] :=
    ⟨_, hstopped, by decide +kernel, by decide +kernel, by decide +kernel⟩
  obtain ⟨lease, hlease, hnumber⟩ : ∃ lease ∈ c.queue.leased, lease.delivery.number = 1 :=
    List.mem_map.1 (hleased ▸ List.mem_singleton_self 1)
  obtain ⟨-, -, -, -, -, -, -, hleases⟩ :=
    deliveries_accounted ⟨rfl, rfl, rfl, rfl, rfl, rfl⟩ .empty hruns hphase
  exact ⟨c, hruns, hphase, hreport, lease, hlease, hleases lease hlease (by rw [hnumber]; decide)⟩

end ProductCatalog.Consumer
