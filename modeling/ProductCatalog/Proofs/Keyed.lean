import Mathlib.Data.List.Nodup

/-!
# Lists whose members have keys of their own

Rows are told apart by their ids, leases by their tokens, and tasks by the
numbers of their deliveries.  Whatever is done to all members with a key is
done to one of them alone.

## Main results

* `filter_key_eq_erase`, `perm_cons_filter_key` — one member and all others.
-/

namespace ProductCatalog

variable {α β : Type} [DecidableEq α] [DecidableEq β] {key : α → β} {l : List α} {a : α}

/-- Leaving out all members with the key of one leaves out this one alone. -/
theorem filter_key_eq_erase (h : (l.map key).Nodup) (ha : a ∈ l) :
    (l.filter fun x => key x != key a) = l.erase a := by
  have hother : ∀ x ∈ l, (key x != key a) = (x != a) := by
    intro x hx
    rw [Bool.eq_iff_iff, bne_iff_ne, bne_iff_ne]
    exact not_congr ⟨List.inj_on_of_nodup_map h hx ha, fun heq => heq ▸ rfl⟩
  rw [List.filter_congr hother, ← h.of_map.erase_eq_filter]

/-- A list is one of its members and all members with other keys. -/
theorem perm_cons_filter_key (h : (l.map key).Nodup) (ha : a ∈ l) :
    l.Perm (a :: l.filter fun x => key x != key a) := by
  rw [filter_key_eq_erase h ha]
  exact List.perm_cons_erase ha

end ProductCatalog
