import ProductCatalog.Proofs.Consumer.Books
import ProductCatalog.Proofs.Consumer.Clock
import ProductCatalog.Proofs.Queue.Tokens

/-!
# One task for a message

If leases run longer than a task can take, the lease of a delivery outlives
its task.  A task has its first turn at the instant of its delivery, and
from then on its deadlines bound the instant at which it is over.  No look
before that instant can find its lease expired, so that its message is not
delivered again and its token stays good.

## Main results

* `Roster.Punctual.step` — leases go on to outlive the tasks.
* `tasks_exclusive` — no message is with two tasks, and no token is stale.
-/

namespace ProductCatalog

open Queue (Delivery Lease)

namespace Consumer

/-! ## The time that tasks have -/

theorem TaskState.le_latest (s : Settings) (now : Nat) (state : TaskState) :
    now ≤ state.latest s now := by
  cases state <;> simp only [latest] <;> omega

/-- Time that passes over no alarm takes no time from a task that waits. -/
theorem Task.latest_of_pass {s : Settings} {now instant : Nat} {task : Task}
    (hready : task.state ≠ .ready)
    (hwake : ∀ wakeAt, task.wakeAt? = some wakeAt → instant ≤ wakeAt) :
    task.state.latest s (max now instant) = task.state.latest s now := by
  unfold Task.wakeAt? at hwake
  cases hstate : task.state with
  | ready => exact absurd hstate hready
  | handling event outcome wakeAt =>
      rw [hstate] at hwake
      have hle := hwake wakeAt rfl
      simp only [TaskState.latest]
      omega
  | deleting ending inTime wakeAt =>
      rw [hstate] at hwake
      have hle := hwake wakeAt rfl
      simp only [TaskState.latest]
      omega

namespace Roster

/-- Every task is over before its lease has run out, and has begun when time passes. -/
structure Punctual (r : Roster) : Prop where
  span : r.settings.handlerTimeout + r.settings.deleteTimeout < r.queue.visibility
  turned : ∀ task ∈ r.tasks, task.state = .ready → .task task.delivery.number ∈ r.turns
  leased : ∀ task ∈ r.tasks, ∃ lease ∈ r.queue.leased, lease.delivery = task.delivery ∧
    task.state.latest r.settings r.now < lease.visibleAt
  refused : ∀ x ∈ r.refusals, x.2 = .delete "injected delete failure"

namespace Punctual

variable {r r' : Roster}

theorem act (h : r.Punctual) (hact : r.Act r') : r'.Punctual := by
  cases hact with
  | counted hturns receives faults =>
      exact ⟨h.span, fun task htask hready => hturns task htask (h.turned task htask hready),
        h.leased, h.refused⟩
  | sent hturns receives faults body =>
      exact ⟨h.span, fun task htask hready => hturns task htask (h.turned task htask hready),
        h.leased, h.refused⟩
  | looked hturns max receives faults hnew =>
      refine ⟨h.span, ?_, ?_, h.refused⟩
      · intro task htask hready
        rcases List.mem_append.1 htask with hold | hin
        · exact hturns task hold (h.turned task hold hready)
        · obtain ⟨d, hd, rfl⟩ := List.mem_map.1 hin
          exact hnew d hd
      · intro task htask
        rcases List.mem_append.1 htask with hold | hin
        · obtain ⟨lease, hl, hdelivery, hlatest⟩ := h.leased task hold
          have hrunning : r.now < lease.visibleAt :=
            Nat.lt_of_le_of_lt (TaskState.le_latest ..) hlatest
          exact ⟨lease, Queue.mem_leased_look_iff.2 (.inl ⟨hl, hrunning⟩), hdelivery, hlatest⟩
        · obtain ⟨d, hd, rfl⟩ := List.mem_map.1 hin
          refine ⟨⟨d, r.now + r.queue.visibility⟩, Queue.lease_of_mem_look hd, rfl, ?_⟩
          have hspan := h.span
          simp only [TaskState.latest]
          omega

/-- A turn of one task keeps the others punctual, and it gets no more time by it. -/
theorem worked (h : r.Punctual) (hnumbers : (r.tasks.map (·.delivery.number)).Nodup) {task : Task}
    (htask : task ∈ r.tasks)
    (hworked : Worked { r with turns := r.turns.erase (.task task.delivery.number) } task.delivery
      (task.state.latest r.settings r.now) r') : r'.Punctual := by
  -- whoever is ready among the other tasks still has its turn
  have hothers : ∀ other ∈ r.tasks.filter (·.delivery.number != task.delivery.number),
      other.state = .ready →
        .task other.delivery.number ∈ r.turns.erase (.task task.delivery.number) := by
    intro other hother hready
    obtain ⟨hmem, hne⟩ := List.mem_filter.1 hother
    have hparty : Party.task other.delivery.number ≠ .task task.delivery.number :=
      fun heq => bne_iff_ne.1 hne (Party.task.inj heq)
    exact (List.mem_erase_of_ne hparty).2 (h.turned other hmem hready)
  cases hworked with
  | parked state alarm hready hlimit =>
      refine ⟨h.span, ?_, ?_, h.refused⟩
      · intro other hother hstate
        obtain ⟨before, hbefore, rfl⟩ := List.mem_map.1 hother
        by_cases hnumber : before.delivery.number = task.delivery.number
        · rw [if_pos hnumber] at hstate
          exact absurd hstate hready
        · rw [if_neg hnumber] at hstate ⊢
          exact hothers before (List.mem_filter.2 ⟨hbefore, bne_iff_ne.2 hnumber⟩) hstate
      · intro other hother
        obtain ⟨before, hbefore, rfl⟩ := List.mem_map.1 hother
        by_cases hnumber : before.delivery.number = task.delivery.number
        · obtain rfl := List.inj_on_of_nodup_map hnumbers hbefore htask hnumber
          obtain ⟨lease, hl, hdelivery, hlatest⟩ := h.leased before hbefore
          rw [if_pos rfl]
          exact ⟨lease, hl, hdelivery, Nat.lt_of_le_of_lt hlimit hlatest⟩
        · rw [if_neg hnumber]
          exact h.leased before hbefore
  | ended hturns =>
      exact ⟨h.span, fun other hother hready => hturns (hothers other hother hready),
        fun other hother => h.leased other (List.mem_of_mem_filter hother), h.refused⟩
  | deleted hturns =>
      refine ⟨?_, fun other hother hready => hturns (hothers other hother hready), ?_, ?_⟩
      · show _ < (r.queue.delete _).1.visibility
        rw [Queue.visibility_delete]
        exact h.span
      · intro other hother
        obtain ⟨hmem, hne⟩ := List.mem_filter.1 hother
        obtain ⟨lease, hl, hdelivery, hlatest⟩ := h.leased other hmem
        refine ⟨lease, Queue.mem_leased_delete hl ?_, hdelivery, hlatest⟩
        rw [hdelivery]
        exact fun htoken => bne_iff_ne.1 hne (Queue.token_inj htoken).2
      · intro x hx
        rcases List.mem_append.1 hx with hold | hnew
        · exact h.refused x hold
        · -- the lease of the task is still there when it deletes its message
          obtain ⟨lease, hl, hdelivery, -⟩ := h.leased task htask
          cases hresult : (r.queue.delete task.delivery.token).2 with
          | ok =>
              rw [hresult] at hnew
              exact absurd hnew List.not_mem_nil
          | error error =>
              rw [hresult] at hnew
              obtain rfl := List.mem_singleton.1 hnew
              rw [← hdelivery] at hresult
              exact Queue.delete_error_of_leased hl hresult

/-- Every step keeps a roster punctual, if no time passes while a party can go on. -/
theorem step (h : r.Punctual) (hnumbers : (r.tasks.map (·.delivery.number)).Nodup)
    (hstep : r.Step r') (hclock : r'.now ≠ r.now → r.turns = []) : r'.Punctual := by
  cases hstep with
  | acted hact => exact h.act hact
  | worked htask hworked => exact h.worked hnumbers htask hworked
  | passed hturns instant hwake =>
      refine ⟨h.span, fun task htask hready => hturns (h.turned task htask hready), ?_, h.refused⟩
      intro task htask
      obtain ⟨lease, hl, hdelivery, hlatest⟩ := h.leased task htask
      refine ⟨lease, hl, hdelivery, ?_⟩
      show task.state.latest r.settings (max r.now instant) < lease.visibleAt
      by_cases hnow : max r.now instant = r.now
      · rwa [hnow]
      -- if time does pass, nobody has a turn, so that this task has begun and waits
      · have hready : task.state ≠ .ready := by
          intro hready
          have hturn := h.turned task htask hready
          rw [hclock hnow] at hturn
          exact absurd hturn List.not_mem_nil
        rwa [Task.latest_of_pass hready (hwake task htask)]
  | reordered hperm =>
      refine ⟨h.span, h.turned, fun task htask => ?_, h.refused⟩
      obtain ⟨lease, hl, hrest⟩ := h.leased task htask
      exact ⟨lease, hperm.symm.subset hl, hrest⟩

end Punctual

end Roster

variable {visibility : Nat} {c₀ c : Consumer}

/-- If leases run longer than a task can take, no task is ever late. -/
theorem PatientRuns.punctual (h : PatientRuns c₀ c) (hfresh : c₀.Fresh) (hqueue : c₀.queue.Sound)
    (hspan : c₀.settings.handlerTimeout + c₀.settings.deleteTimeout < c₀.queue.visibility) :
    c.roster.Punctual := by
  induction h with
  | refl =>
      refine ⟨hspan, ?_, ?_, ?_⟩
      · intro task htask
        rw [roster, hfresh.tasks] at htask
        exact absurd htask List.not_mem_nil
      · intro task htask
        rw [roster, hfresh.tasks] at htask
        exact absurd htask List.not_mem_nil
      · intro x hx
        rw [roster, hfresh.history] at hx
        exact absurd hx List.not_mem_nil
  | move hruns hmove hclock ih =>
      exact ih.step (hruns.runs.orderly hfresh hqueue).books.tasks_nodup hmove.roster hclock

/--
If leases run longer than a handler and a deletion may take together, then
whatever is done to a consumer: no two running tasks have the same message,
the lease of a running task has not run out, and a deletion is refused only
if the queue has been told to refuse it, never for the sake of its token.
-/
theorem tasks_exclusive (hfresh : c₀.Fresh) (hqueue : Queue.Reachable visibility c₀.queue)
    (hspan : c₀.settings.handlerTimeout + c₀.settings.deleteTimeout < c₀.queue.visibility)
    (h : PatientRuns c₀ c) :
    (c.tasks.map (·.delivery.message)).Nodup ∧
      (∀ task ∈ c.tasks, ∃ lease ∈ c.queue.leased, lease.delivery = task.delivery ∧
        c.now < lease.visibleAt) ∧
      ∀ t d error, (t, .deleteFailed d error) ∈ c.history →
        error = .delete "injected delete failure" := by
  have hpunctual := h.punctual hfresh hqueue.sound hspan
  have hbooks := (h.runs.orderly hfresh hqueue.sound).books
  refine ⟨?_, ?_, ?_⟩
  · rw [List.nodup_map_iff_inj_on hbooks.tasks_nodup.of_map]
    intro task htask other hother hmessage
    obtain ⟨lease, hl, hdelivery, -⟩ := hpunctual.leased task htask
    obtain ⟨lease', hl', hdelivery', -⟩ := hpunctual.leased other hother
    rw [← hdelivery, ← hdelivery'] at hmessage
    obtain rfl := hbooks.queue.eq_of_message hl hl' hmessage
    refine List.inj_on_of_nodup_map hbooks.tasks_nodup htask hother ?_
    rw [← hdelivery, hdelivery']
  · intro task htask
    obtain ⟨lease, hl, hdelivery, hlatest⟩ := hpunctual.leased task htask
    exact ⟨lease, hl, hdelivery, Nat.lt_of_le_of_lt (TaskState.le_latest ..) hlatest⟩
  · intro t d error hfailed
    exact hpunctual.refused (d, error) (mem_refusals.2 ⟨t, hfailed⟩)

/-- A consumer whose leases run a little longer than its tasks. -/
private def tight : Consumer where
  settings := { waitTime := 100, retryDelay := 30, handlerTimeout := 20, deleteTimeout := 9 }
  deleteDelay n := 3 * n
  queue := { visibility := 30 }

/-- A deletion is refused, and after the lease has run out the message has a second task. -/
theorem tasks_exclusive_of_refusal :
    ∃ c, PatientRuns tight c ∧ c.now = 30 ∧ c.tasks.map (·.delivery) = [⟨⟨1, []⟩, 2⟩] ∧
      (c.tasks.map (·.delivery.message)).Nodup ∧
      (∃ lease ∈ c.queue.leased, lease.delivery = ⟨⟨1, []⟩, 2⟩ ∧ c.now < lease.visibleAt) ∧
      ∃ t error, (t, .deleteFailed ⟨⟨1, []⟩, 1⟩ error) ∈ c.history ∧
        error = .delete "injected delete failure" := by
  have hsent : PatientRuns tight _ := PatientRuns.refl.prompt (.send []) rfl
  have hstarted := (hsent.prompt (.fail { deletes := 1 }) rfl).prompt .start rfl
  obtain ⟨c, hruns, hnow, htasks, hrefusals⟩ : ∃ c, PatientRuns tight c ∧ c.now = 30 ∧
      c.tasks.map (·.delivery) = [⟨⟨1, []⟩, 2⟩] ∧
      (refusals c.history).map (·.1) = [⟨⟨1, []⟩, 1⟩] :=
    ⟨_, hstarted.of_steps 31 20, by decide +kernel, by decide +kernel, by decide +kernel⟩
  have hfresh : tight.Fresh := ⟨rfl, rfl, rfl, rfl, rfl, rfl⟩
  obtain ⟨honce, hleases, hinjected⟩ := tasks_exclusive hfresh .empty (by decide) hruns
  refine ⟨c, hruns, hnow, htasks, honce, ?_, ?_⟩
  · obtain ⟨task, htask, hdelivery⟩ := List.mem_map.1 (htasks ▸ List.mem_singleton_self _)
    obtain ⟨lease, hl, hsame, hrunning⟩ := hleases task htask
    exact ⟨lease, hl, hsame.trans hdelivery, hrunning⟩
  · obtain ⟨⟨d, error⟩, hmem, rfl⟩ := List.mem_map.1 (hrefusals ▸ List.mem_singleton_self _)
    obtain ⟨t, ht⟩ := mem_refusals.1 hmem
    exact ⟨t, error, ht, hinjected t _ error ht⟩

end Consumer

end ProductCatalog
