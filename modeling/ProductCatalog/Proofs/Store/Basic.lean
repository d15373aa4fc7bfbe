import ProductCatalog.Store.Sessions

/-!
# Inserts and the ids that they draw

An insert fails because it is told to, or because its key is taken; if not,
it reserves the key and draws an id.  A deletion takes an id's row away.  That
no id is drawn twice is nothing that the store could see to, so that theorems
assume it of the ids drawn up to the state they speak of.

## Main results

* `Store.insert_cases`, `delete_cases` — what an insert and a deletion do.
* `Supply.Distinct.unused_id` — an id about to be drawn is new.
-/

namespace ProductCatalog

/-- An insert fails by injection, finds its key taken, or reserves it. -/
theorem Store.insert_cases (s : Store) (tx : Transaction) (input : NewProduct) (id : ProductId)
    (now : Instant) :
    (s.faults.inserts ≠ 0 ∧ ∃ faults, s.insert tx input id now =
        ({ s with faults := faults }, tx, .error (.internal "injected insert failure"))) ∨
      (s.faults.inserts = 0 ∧ s.keyTaken input.key = true ∧
        s.insert tx input id now = (s, tx, .error .duplicateProduct)) ∨
      (s.faults.inserts = 0 ∧ s.keyTaken input.key = false ∧
        s.insert tx input id now = ({ s with reserved := s.reserved ++ [input.key] },
          ⟨tx.pending ++ [input.stamped id now]⟩, .ok (input.stamped id now))) := by
  unfold insert
  cases s.faults.inserts with
  | succ n => exact .inl ⟨Nat.succ_ne_zero n, _, rfl⟩
  | zero =>
      cases hkey : s.keyTaken input.key with
      | true => exact .inr (.inl ⟨rfl, rfl, rfl⟩)
      | false => exact .inr (.inr ⟨rfl, rfl, rfl⟩)

/-- A deletion removes the row of its id if there is one. -/
theorem Store.delete_cases (s : Store) (id : ProductId) :
    ((∃ p ∈ s.rows, p.id = id) ∧
        s.delete id = ({ s with rows := s.rows.filter fun p => p.id != id }, .ok ())) ∨
      ((∀ p ∈ s.rows, p.id ≠ id) ∧ s.delete id = (s, .error .noSuchProduct)) := by
  unfold Store.delete
  simp only
  split
  · rename_i hlen
    refine .inr ⟨?_, rfl⟩
    simpa [List.length_filter_eq_length_iff] using hlen
  · rename_i hlen
    refine .inl ⟨?_, rfl⟩
    simpa [List.length_filter_eq_length_iff] using hlen

namespace Supply

variable {s : Supply} {id : ProductId}

/-- An id that a supply has not given yet. -/
def Unused (s : Supply) (id : ProductId) : Prop := ∀ n < s.drawn, s.idAt n ≠ id

/-- No id has been drawn twice. -/
def Distinct (s : Supply) : Prop := ∀ i j, i < j → j < s.drawn → s.idAt i ≠ s.idAt j

theorem Distinct.of_next (h : s.next.Distinct) : s.Distinct :=
  fun i j hij hj => h i j hij (Nat.lt_succ_of_lt hj)

/-- If an id can be drawn without repeating one, it has not been given yet. -/
theorem Distinct.unused_id (h : s.next.Distinct) : s.Unused s.id :=
  fun n hn => h n s.drawn hn (Nat.lt_succ_self _)

theorem Unused.of_next (h : s.next.Unused id) : s.Unused id :=
  fun n hn => h n (Nat.lt_succ_of_lt hn)

theorem Unused.ne_id (h : s.next.Unused id) : id ≠ s.id :=
  fun heq => h s.drawn (Nat.lt_succ_self _) heq.symm

end Supply

end ProductCatalog
