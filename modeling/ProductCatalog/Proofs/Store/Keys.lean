import Mathlib.Data.List.Induction
import ProductCatalog.Proofs.Keyed
import ProductCatalog.Proofs.Store.Basic

/-!
# The keys of products

A product takes its key when it is inserted and keeps it until its row is
deleted or its transaction ends without a commit.  At every instant the keys
taken are those of the rows and those of the products that *wait* for a
commit, all of them different, and the reservations are the keys of the
latter.  Each of the ways in which a transaction ends takes its products from
those that wait and gives back their reservations, and these only.

## Main results

* `Store.Reserves.insertFrom`, `release`, `commit`, `delete` — the operations.
* `Sessions.transaction?_perform` — which transactions a command leaves open.
* `Sessions.Regular.perform` — what one command keeps.
* `Sessions.keys_exclusive` — the keys and ids at a store, and when an insert
  finds its key taken.
-/

namespace ProductCatalog

/-! ## One store -/

/--
The reservations of a store are the keys of the products that wait for a
commit, and no two products, waiting or committed, share a key or an id.
-/
structure Store.Reserves (s : Store) (waiting : List Product) (supply : Supply) : Prop where
  reserved : s.reserved.Perm (waiting.map Product.key)
  keys : ((s.rows ++ waiting).map Product.key).Nodup
  ids : ((s.rows ++ waiting).map Product.id).Nodup
  drawn : ∀ id, supply.Unused id → id ∉ (s.rows ++ waiting).map Product.id

namespace Store

/-- A key is taken by a row or by a product that waits. -/
theorem Reserves.keyTaken_iff {s : Store} {waiting : List Product} {supply : Supply}
    (h : s.Reserves waiting supply) (key : ProductKey) :
    s.keyTaken key = true ↔ key ∈ (s.rows ++ waiting).map Product.key := by
  have hreserved := h.reserved.mem_iff (a := key)
  simp [keyTaken, hreserved, or_comm]

namespace Reserves

variable {s : Store} {waiting waiting' rest : List Product} {supply : Supply} {tx : Transaction}

theorem empty (supply : Supply) : Reserves {} [] supply where
  reserved := .refl _
  keys := .nil
  ids := .nil
  drawn _ _ := List.not_mem_nil

/-- In which order products wait does not matter. -/
theorem perm (h : s.Reserves waiting supply) (hperm : waiting'.Perm waiting) :
    s.Reserves waiting' supply where
  reserved := h.reserved.trans (hperm.map _).symm
  keys := (((hperm.append_left _).map _).nodup_iff).2 h.keys
  ids := (((hperm.append_left _).map _).nodup_iff).2 h.ids
  drawn id hid := by
    rw [((hperm.append_left _).map _).mem_iff]
    exact h.drawn id hid

/-- How many operations shall fail does not matter. -/
theorem fail (h : s.Reserves waiting supply) (faults : Faults) :
    Reserves { s with faults := faults } waiting supply :=
  { h with }

/-- A product whose key is free and whose id is new joins those that wait. -/
theorem reserve (h : s.Reserves waiting supply) (hd : supply.next.Distinct) {input : NewProduct}
    (hfree : s.keyTaken input.key = false) :
    Reserves { s with reserved := s.reserved ++ [input.key] }
      (input.stamped supply.id supply.now :: waiting) supply.next := by
  have hkey : input.key ∉ (s.rows ++ waiting).map Product.key := by
    rw [← h.keyTaken_iff, hfree]
    exact Bool.false_ne_true
  have hid : supply.id ∉ (s.rows ++ waiting).map Product.id := h.drawn _ hd.unused_id
  have hmiddle : (s.rows ++ input.stamped supply.id supply.now :: waiting).Perm
      (input.stamped supply.id supply.now :: (s.rows ++ waiting)) := List.perm_middle
  refine ⟨?_, ?_, ?_, ?_⟩
  · exact (h.reserved.append_right _).trans List.perm_append_comm
  · rw [(hmiddle.map _).nodup_iff]
    exact List.nodup_cons.2 ⟨hkey, h.keys⟩
  · rw [(hmiddle.map _).nodup_iff]
    exact List.nodup_cons.2 ⟨hid, h.ids⟩
  · intro id hunused hmem
    rw [(hmiddle.map _).mem_iff] at hmem
    rcases List.mem_cons.1 hmem with heq | hold
    · exact hunused.ne_id heq
    · exact h.drawn id hunused.of_next hold

/-- An insert keeps all keys apart, whether it succeeds or not. -/
theorem insertFrom (h : s.Reserves (tx.pending ++ rest) supply) {input : NewProduct}
    {s' : Store} {tx' : Transaction} {supply' : Supply} {result : Except CatalogError Product}
    (hinsert : s.insertFrom tx input supply = (s', tx', supply', result))
    (hd : supply'.Distinct) : s'.Reserves (tx'.pending ++ rest) supply' := by
  unfold Store.insertFrom at hinsert
  rcases s.insert_cases tx input supply.id supply.now with
    ⟨-, faults, hcase⟩ | ⟨-, -, hcase⟩ | ⟨-, hfree, hcase⟩
  · rw [hcase] at hinsert
    cases hinsert
    exact h.fail faults
  · rw [hcase] at hinsert
    cases hinsert
    exact h
  · rw [hcase] at hinsert
    cases hinsert
    refine (h.reserve hd hfree).perm ?_
    rw [List.append_assoc]
    exact List.perm_middle

/-- What the end of a transaction gives back are the reservations of its products. -/
theorem reserved_release (h : s.Reserves (tx.pending ++ rest) supply) :
    (s.release tx).reserved.Perm (rest.map Product.key) := by
  -- no other transaction waits with a key of this one, so that giving back all its keys gives
  -- back no more than its own
  have hnodup : (tx.keys ++ rest.map Product.key).Nodup := by
    have hkeys := h.keys
    rw [List.map_append, List.map_append] at hkeys
    exact (List.nodup_append.1 hkeys).2.1
  have hown : tx.keys.filter (fun key => !tx.keys.contains key) = [] := by
    rw [List.filter_eq_nil_iff]
    intro key hkey
    simpa using hkey
  have hothers : (rest.map Product.key).filter (fun key => !tx.keys.contains key) =
      rest.map Product.key := by
    rw [List.filter_eq_self]
    intro key hkey
    have hne : key ∉ tx.keys := fun htx => (List.nodup_append.1 hnodup).2.2 _ htx _ hkey rfl
    simpa using hne
  have hperm := h.reserved.filter fun key => !tx.keys.contains key
  rwa [List.map_append, List.filter_append, ← Transaction.keys, hown, hothers,
    List.nil_append] at hperm

/-- Products that are gone leave the others apart. -/
private theorem of_sublist (h : s.Reserves waiting supply) {s' : Store}
    (hreserved : s'.reserved.Perm (waiting'.map Product.key))
    (hless : (s'.rows ++ waiting').Sublist (s.rows ++ waiting)) : s'.Reserves waiting' supply where
  reserved := hreserved
  keys := h.keys.sublist (hless.map _)
  ids := h.ids.sublist (hless.map _)
  drawn id hid hmem := h.drawn id hid ((hless.map _).subset hmem)

/-- The products of a transaction that ends without a commit wait no longer. -/
theorem release (h : s.Reserves (tx.pending ++ rest) supply) :
    (s.release tx).Reserves rest supply :=
  h.of_sublist h.reserved_release ((List.sublist_append_right _ _).append_left _)

/-- A commit turns the products of its transaction into rows, unless it fails. -/
theorem commit (h : s.Reserves (tx.pending ++ rest) supply) :
    (s.commit tx).1.Reserves rest supply := by
  unfold Store.commit
  split
  · exact h.release.fail _
  · refine h.of_sublist h.reserved_release ?_
    rw [List.append_assoc]

/-- Rows that are gone leave the others apart. -/
theorem remove (h : s.Reserves waiting supply) (id : ProductId) :
    Reserves { s with rows := s.rows.filter fun p => p.id != id } waiting supply :=
  h.of_sublist h.reserved (List.filter_sublist.append_right _)

/-- A deletion frees the key of a row. -/
theorem delete (h : s.Reserves waiting supply) (id : ProductId) :
    (s.delete id).1.Reserves waiting supply := by
  unfold Store.delete
  simp only
  split
  · exact h
  · exact h.remove id

end Reserves

end Store

/-! ## Many transactions -/

namespace Sessions

/-- What can be done at a store with many transactions. -/
inductive Command
  | begin
  | insert (tx : Nat) (input : NewProduct)
  | commit (tx : Nat)
  | rollback (tx : Nat)
  /-- A transaction is dropped without a word. -/
  | drop (tx : Nat)
  | delete (id : ProductId)
  /-- The store is told how many of its next operations shall fail. -/
  | fail (faults : Store.Faults)

/-- What is left of a store and its transactions by a command. -/
def perform (s : Sessions) : Command → Sessions
  | .begin => s.begin.1
  | .insert tx input => (s.insert tx input).1
  | .commit tx => (s.commit tx).1
  | .rollback tx | .drop tx => (s.rollback tx).1
  | .delete id => (s.delete id).1
  | .fail faults => { s with store := { s.store with faults := faults } }

/-- What commands leave, one after another. -/
def run (s : Sessions) (commands : List Command) : Sessions := commands.foldl perform s

/-- The products that wait for a commit, one transaction after another. -/
def waiting (s : Sessions) : List Product := s.opened.flatMap fun entry => entry.2.pending

/-- Transactions have numbers of their own, and their store reserves what they wait with. -/
structure Regular (s : Sessions) : Prop where
  numbers : (s.opened.map Prod.fst).Nodup
  begun : ∀ entry ∈ s.opened, entry.1 < s.begun
  reserves : s.store.Reserves s.waiting s.supply

theorem mem_of_transaction? {s : Sessions} {tx : Nat} {t : Transaction}
    (h : s.transaction? tx = some t) : (tx, t) ∈ s.opened := by
  obtain ⟨before, after, hsplit, -⟩ := List.lookup_eq_some_iff.1 h
  rw [hsplit]
  exact List.mem_append_right _ List.mem_cons_self

/-! ## Open transactions -/

private theorem lookup_cons (n : Nat) (t : Transaction) (rest : List (Nat × Transaction))
    (tx : Nat) : ((n, t) :: rest).lookup tx = if tx = n then some t else rest.lookup tx := by
  rw [List.lookup_cons]
  by_cases heq : tx = n
  · rw [beq_iff_eq.2 heq, if_pos heq]
  · rw [beq_eq_false_iff_ne.2 heq, if_neg heq]

theorem transaction?_begin (s : Sessions) (tx : Nat) :
    s.begin.1.transaction? tx =
      (s.transaction? tx).or (if tx = s.begun then some ⟨[]⟩ else none) := by
  show (s.opened ++ [(s.begun, (⟨[]⟩ : Transaction))]).lookup tx = _
  rw [List.lookup_append, lookup_cons]
  rfl

theorem transaction?_close (s : Sessions) (tx other : Nat) :
    (s.close tx).transaction? other = if other = tx then none else s.transaction? other := by
  show (s.opened.filter (·.1 != tx)).lookup other =
    if other = tx then none else s.opened.lookup other
  induction s.opened with
  | nil => exact (ite_self _).symm
  | cons entry rest ih =>
      obtain ⟨n, t⟩ := entry
      by_cases hn : n = tx
      · have hskip : ((n, t) :: rest).filter (·.1 != tx) = rest.filter (·.1 != tx) := by simp [hn]
        rw [hskip, ih, lookup_cons, hn]
        by_cases ho : other = tx <;> simp [ho]
      · have hkeep : ((n, t) :: rest).filter (·.1 != tx) = (n, t) :: rest.filter (·.1 != tx) := by
          simp [hn]
        rw [hkeep, lookup_cons, lookup_cons, ih]
        by_cases ho : other = tx <;> simp [ho, Ne.symm hn]

/-- The open transactions after one has been replaced. -/
theorem lookup_replaced (opened : List (Nat × Transaction)) (tx other : Nat) (t : Transaction) :
    (opened.map fun entry => if entry.1 = tx then (tx, t) else entry).lookup other =
      (opened.lookup other).map fun old => if other = tx then t else old := by
  induction opened with
  | nil => rfl
  | cons entry rest ih =>
      obtain ⟨n, old⟩ := entry
      by_cases hn : n = tx
      · rw [List.map_cons, if_pos hn, lookup_cons, lookup_cons, ih, hn]
        by_cases ho : other = tx <;> simp [ho]
      · rw [List.map_cons, if_neg hn, lookup_cons, lookup_cons, ih]
        by_cases ho : other = n
        · simp [ho, hn]
        · simp [ho]

/-- The transaction that a command ends. -/
def Command.end? : Command → Option Nat
  | commit tx | rollback tx | drop tx => some tx
  | begin | insert .. | delete _ | fail _ => none

/-- Of the transactions that have begun, a command leaves those open that it does not end. -/
theorem transaction?_perform (s : Sessions) (command : Command) {tx : Nat} (hbegun : tx < s.begun) :
    ((s.perform command).transaction? tx).isSome ↔
      (s.transaction? tx).isSome ∧ command.end? ≠ some tx := by
  -- what has ended stays so, and nothing else ends
  have hclosed : ∀ (store : Store) (other : Nat),
      (({ s with store := store }.close other).transaction? tx).isSome ↔
        (s.transaction? tx).isSome ∧ some other ≠ some tx := by
    intro store other
    rw [transaction?_close]
    by_cases htx : tx = other
    · simp [htx]
    · rw [if_neg htx]
      simp [transaction?, Ne.symm htx]
  have hmissing : ∀ {other : Nat}, s.transaction? other = none →
      ((s.transaction? tx).isSome ↔ (s.transaction? tx).isSome ∧ some other ≠ some tx) := by
    intro other hnone
    refine ⟨fun hopen => ⟨hopen, ?_⟩, And.left⟩
    rintro ⟨⟩
    rw [hnone] at hopen
    cases hopen
  cases command with
  | begin =>
      show (s.begin.1.transaction? tx).isSome ↔ _
      rw [transaction?_begin, if_neg (Nat.ne_of_lt hbegun), Option.or_none]
      simp [Command.end?]
  | insert other input =>
      show ((s.insert other input).1.transaction? tx).isSome ↔ _
      unfold Sessions.insert
      cases s.transaction? other with
      | none => simp [Command.end?]
      | some t =>
          show ((s.opened.map _).lookup tx).isSome ↔ (s.opened.lookup tx).isSome ∧ _
          rw [lookup_replaced, Option.isSome_map]
          simp [Command.end?]
  | commit other =>
      show ((s.commit other).1.transaction? tx).isSome ↔ _
      unfold Sessions.commit
      cases hopen : s.transaction? other with
      | none => exact hmissing hopen
      | some t => exact hclosed _ other
  | rollback other | drop other =>
      show ((s.rollback other).1.transaction? tx).isSome ↔ _
      unfold Sessions.rollback
      cases hopen : s.transaction? other with
      | none => exact hmissing hopen
      | some t => exact hclosed _ other
  | delete id | fail faults => simp [perform, Command.end?, transaction?, Sessions.delete]

theorem begun_perform (s : Sessions) (command : Command) : s.begun ≤ (s.perform command).begun := by
  cases command with
  | begin => exact Nat.le_succ _
  | insert tx input =>
      show _ ≤ (s.insert tx input).1.begun
      unfold Sessions.insert
      split <;> exact Nat.le_refl _
  | commit tx =>
      show _ ≤ (s.commit tx).1.begun
      unfold Sessions.commit
      split <;> exact Nat.le_refl _
  | rollback tx | drop tx =>
      show _ ≤ (s.rollback tx).1.begun
      unfold Sessions.rollback
      split <;> exact Nat.le_refl _
  | delete | fail => exact Nat.le_refl _

/-- A transaction that has ended stays so. -/
theorem transaction?_run {s : Sessions} {tx : Nat} (hbegun : tx < s.begun)
    (hended : s.transaction? tx = none) (commands : List Command) :
    (s.run commands).transaction? tx = none := by
  induction commands generalizing s with
  | nil => exact hended
  | cons command rest ih =>
      refine ih (Nat.lt_of_lt_of_le hbegun (s.begun_perform command)) ?_
      rw [← Option.not_isSome_iff_eq_none, s.transaction?_perform command hbegun, hended]
      exact fun h => nomatch h.1

namespace Regular

variable {s : Sessions} {tx : Nat} {t : Transaction}

theorem empty (supply : Supply) : Regular { supply := supply } where
  numbers := .nil
  begun := nofun
  reserves := .empty supply

/-- An open transaction, and all others. -/
theorem opened_perm (h : s.Regular) (ht : s.transaction? tx = some t) :
    s.opened.Perm ((tx, t) :: (s.close tx).opened) :=
  perm_cons_filter_key h.numbers (mem_of_transaction? ht)

theorem waiting_perm (h : s.Regular) (ht : s.transaction? tx = some t) :
    s.waiting.Perm (t.pending ++ (s.close tx).waiting) :=
  (h.opened_perm ht).flatMap_right _

theorem begin (h : s.Regular) : s.begin.1.Regular where
  numbers := by
    have hnew : s.begun ∉ s.opened.map Prod.fst := by
      rintro hmem
      obtain ⟨entry, hentry, heq⟩ := List.mem_map.1 hmem
      exact absurd (h.begun entry hentry) (Nat.not_lt.2 (Nat.le_of_eq heq.symm))
    show ((s.opened ++ [(s.begun, (⟨[]⟩ : Transaction))]).map Prod.fst).Nodup
    rw [List.map_append, (List.perm_append_comm).nodup_iff]
    exact List.nodup_cons.2 ⟨hnew, h.numbers⟩
  begun entry hentry := by
    rcases List.mem_append.1 hentry with hold | hnew
    · exact Nat.lt_succ_of_lt (h.begun entry hold)
    · obtain rfl := List.mem_singleton.1 hnew
      exact Nat.lt_succ_self _
  reserves := by
    have hwaiting : s.begin.1.waiting = s.waiting := by
      show (s.opened ++ [(s.begun, (⟨[]⟩ : Transaction))]).flatMap _ = _
      rw [List.flatMap_append]
      exact List.append_nil _
    rw [hwaiting]
    exact h.reserves

/-- A transaction ends, whichever way it takes. -/
theorem close (h : s.Regular) {store : Store}
    (hstore : store.Reserves (s.close tx).waiting s.supply) :
    Regular ({ s with store := store }.close tx) where
  numbers := h.numbers.sublist (List.filter_sublist.map _)
  begun entry hentry := h.begun entry (List.mem_of_mem_filter hentry)
  reserves := hstore

/-- One of the open transactions goes on. -/
theorem replace (h : s.Regular) (ht : s.transaction? tx = some t) {store : Store}
    {t' : Transaction} {supply : Supply}
    (hstore : store.Reserves (t'.pending ++ (s.close tx).waiting) supply) :
    Regular { s with
      store := store
      supply := supply
      opened := s.opened.map fun entry => if entry.1 = tx then (tx, t') else entry } := by
  have hothers : (s.close tx).opened.map (fun entry => if entry.1 = tx then (tx, t') else entry) =
      (s.close tx).opened := by
    refine (List.map_congr_left ?_).trans (List.map_id _)
    intro entry hentry
    exact if_neg (by simpa using (List.mem_filter.1 hentry).2)
  have hperm := (h.opened_perm ht).map fun entry => if entry.1 = tx then (tx, t') else entry
  rw [List.map_cons, if_pos rfl, hothers] at hperm
  have hnumbers : ∀ entry : Nat × Transaction,
      (if entry.1 = tx then (tx, t') else entry).1 = entry.1 := by
    intro entry
    split
    · rename_i heq
      exact heq.symm
    · rfl
  refine ⟨?_, ?_, hstore.perm (hperm.flatMap_right _)⟩
  · rw [List.map_map]
    exact (congrArg List.Nodup (List.map_congr_left fun entry _ => hnumbers entry)).mpr h.numbers
  · intro entry hentry
    obtain ⟨old, hold, rfl⟩ := List.mem_map.1 hentry
    rw [hnumbers]
    exact h.begun old hold

theorem insert (h : s.Regular) {input : NewProduct}
    (hd : (s.insert tx input).1.supply.Distinct) : (s.insert tx input).1.Regular := by
  unfold Sessions.insert at hd ⊢
  cases ht : s.transaction? tx with
  | none => exact h
  | some t =>
      rw [ht] at hd
      rcases hinsert : s.store.insertFrom t input s.supply with ⟨store, t', supply, result⟩
      simp only [hinsert] at hd ⊢
      exact h.replace ht ((h.reserves.perm (h.waiting_perm ht).symm).insertFrom hinsert hd)

theorem commit (h : s.Regular) : (s.commit tx).1.Regular := by
  unfold Sessions.commit
  cases ht : s.transaction? tx with
  | none => exact h
  | some t => exact h.close (h.reserves.perm (h.waiting_perm ht).symm).commit

theorem rollback (h : s.Regular) : (s.rollback tx).1.Regular := by
  unfold Sessions.rollback
  cases ht : s.transaction? tx with
  | none => exact h
  | some t => exact h.close (h.reserves.perm (h.waiting_perm ht).symm).release

/-- Every command keeps the transactions of a store regular, unless it draws an id again. -/
theorem perform (h : s.Regular) (command : Command) (hd : (s.perform command).supply.Distinct) :
    (s.perform command).Regular := by
  cases command with
  | begin => exact h.begin
  | insert tx input => exact h.insert hd
  | commit tx => exact h.commit
  | rollback tx => exact h.rollback
  | drop tx => exact h.rollback
  | delete id => exact ⟨h.numbers, h.begun, h.reserves.delete id⟩
  | fail faults => exact ⟨h.numbers, h.begun, h.reserves.fail faults⟩

end Regular

/-! ## Runs -/

theorem run_append_singleton (s : Sessions) (commands : List Command) (command : Command) :
    s.run (commands ++ [command]) = (s.run commands).perform command :=
  List.foldl_append ..

/-- A command draws at most one id. -/
theorem supply_perform (s : Sessions) (command : Command) :
    (s.perform command).supply = s.supply ∨ (s.perform command).supply = s.supply.next := by
  cases command with
  | begin | delete | fail => exact .inl rfl
  | insert tx input =>
      show (s.insert tx input).1.supply = _ ∨ (s.insert tx input).1.supply = _
      unfold insert Store.insertFrom
      cases s.transaction? tx with
      | none => exact .inl rfl
      | some t =>
          rcases s.store.insert_cases t input s.supply.id s.supply.now with
            ⟨-, _, hinsert⟩ | ⟨-, -, hinsert⟩ | ⟨-, -, hinsert⟩
          · simp only [hinsert, true_or]
          · simp only [hinsert, true_or]
          · simp only [hinsert, or_true]
  | commit tx =>
      show (s.commit tx).1.supply = _ ∨ (s.commit tx).1.supply = _
      unfold commit
      split <;> exact .inl rfl
  | rollback tx | drop tx =>
      show (s.rollback tx).1.supply = _ ∨ (s.rollback tx).1.supply = _
      unfold rollback
      split <;> exact .inl rfl

/-- If no id has been drawn twice after a command, none had been before. -/
theorem distinct_of_perform {s : Sessions} {command : Command}
    (hd : (s.perform command).supply.Distinct) : s.supply.Distinct := by
  rcases s.supply_perform command with hs | hs
  · exact hs ▸ hd
  · rw [hs] at hd
    exact hd.of_next

theorem distinct_of_run {s : Sessions} {commands : List Command}
    (hd : (s.run commands).supply.Distinct) : s.supply.Distinct := by
  induction commands generalizing s with
  | nil => exact hd
  | cons command rest ih => exact distinct_of_perform (ih hd)

theorem Regular.run {s : Sessions} (h : s.Regular) (commands : List Command)
    (hd : (s.run commands).supply.Distinct) : (s.run commands).Regular := by
  induction commands using List.reverseRecOn with
  | nil => exact h
  | append_singleton commands command ih =>
      rw [run_append_singleton] at hd ⊢
      exact (ih (distinct_of_perform hd)).perform command hd

/-- An insert that is not told to fail fails if and only if its key is taken. -/
theorem insert_conflict_iff {s : Sessions} {tx : Nat} {t : Transaction} {input : NewProduct}
    (ht : s.transaction? tx = some t) (hfaults : s.store.faults.inserts = 0) :
    (∃ detail, (s.insert tx input).2 = some (.error (.conflict detail))) ↔
      s.store.keyTaken input.key = true := by
  unfold insert Store.insertFrom
  rw [ht]
  rcases s.store.insert_cases t input s.supply.id s.supply.now with
    ⟨hne, -⟩ | ⟨-, htaken, hinsert⟩ | ⟨-, hfree, hinsert⟩
  · exact absurd hfaults hne
  · simp only [hinsert, htaken, iff_true]
    exact ⟨_, rfl⟩
  · simp [hinsert, hfree]

/--
Whatever transactions do at a store, one beside another and with any faults:
rows have keys and ids of their own, and so have the products that wait,
whose keys no row has; reserved are the keys of the products that wait, and
no others.  A transaction that has been committed, rolled back or dropped is
open no longer.  An insert that is not told to fail reports a conflict if and only
if a row or a product that waits, in its own transaction or another, has its
key.
-/
theorem keys_exclusive {supply : Supply} {commands : List Command} {s : Sessions}
    (hs : run { supply := supply } commands = s) (hids : s.supply.Distinct) :
    (s.store.rows.map Product.key).Nodup ∧ (s.store.rows.map Product.id).Nodup ∧
      (s.waiting.map Product.key).Nodup ∧
      (∀ row ∈ s.store.rows, ∀ p ∈ s.waiting, row.key ≠ p.key) ∧
      (∀ key, key ∈ s.store.reserved ↔ ∃ p ∈ s.waiting, p.key = key) ∧
      (∀ before command after tx, commands = before ++ command :: after →
        ((run { supply := supply } before).transaction? tx).isSome → command.end? = some tx →
          s.transaction? tx = none) ∧
      ∀ tx input, (s.transaction? tx).isSome → s.store.faults.inserts = 0 →
        ((∃ detail, (s.insert tx input).2 = some (.error (.conflict detail))) ↔
          (∃ row ∈ s.store.rows, row.key = input.key) ∨
            ∃ entry ∈ s.opened, ∃ p ∈ entry.2.pending, p.key = input.key) := by
  have hregular : s.Regular := by
    subst hs
    exact (Regular.empty supply).run commands hids
  have hreserves := hregular.reserves
  have hkeys := hreserves.keys
  have hrowids := hreserves.ids
  rw [List.map_append, List.nodup_append] at hkeys hrowids
  obtain ⟨hrows, hwaiting, hapart⟩ := hkeys
  refine ⟨hrows, hrowids.1, hwaiting, ?_, ?_, ?_, ?_⟩
  · intro row hrow p hp
    exact hapart _ (List.mem_map_of_mem hrow) _ (List.mem_map_of_mem hp)
  · intro key
    rw [hreserves.reserved.mem_iff, List.mem_map]
  · rintro before command after tx rfl hopen hend
    have hrest : run { supply := supply } (before ++ command :: after) =
        run (perform (run { supply := supply } before) command) after := List.foldl_append ..
    rw [hrest] at hs
    subst hs
    have hbefore : (run { supply := supply } before).Regular :=
      (Regular.empty supply).run before (distinct_of_perform (distinct_of_run hids))
    obtain ⟨t, ht⟩ := Option.isSome_iff_exists.1 hopen
    have hbegun := hbefore.begun _ (mem_of_transaction? ht)
    refine transaction?_run (Nat.lt_of_lt_of_le hbegun (begun_perform _ command)) ?_ after
    rw [← Option.not_isSome_iff_eq_none, transaction?_perform _ command hbegun]
    exact fun h => h.2 hend
  · intro tx input hopen hfaults
    obtain ⟨t, ht⟩ := Option.isSome_iff_exists.1 hopen
    rw [insert_conflict_iff ht hfaults, hreserves.keyTaken_iff, List.map_append, List.mem_append,
      List.mem_map, List.mem_map]
    refine or_congr_right ⟨?_, ?_⟩
    · rintro ⟨p, hp, hkey⟩
      obtain ⟨entry, hentry, hin⟩ := List.mem_flatMap.1 hp
      exact ⟨entry, hentry, p, hin, hkey⟩
    · rintro ⟨entry, hentry, p, hin, hkey⟩
      exact ⟨p, List.mem_flatMap.2 ⟨entry, hentry, hin⟩, hkey⟩

/-- Four transactions insert one product each, and the first one commits. -/
private def fourInserts : List Command :=
  [.begin, .begin, .begin, .begin, .insert 0 ⟨"Cup", "Acme", "", default⟩,
    .insert 1 ⟨"Lamp", "Acme", "", default⟩, .insert 2 ⟨"Bowl", "Acme", "", default⟩,
    .insert 3 ⟨"Vase", "Acme", "", default⟩, .commit 0]

/-- The others are rolled back, dropped or fail to commit, and give back their keys.  Another
transaction then takes one of these. -/
theorem keys_exclusive_of_endings :
    ∃ commands s, run { supply := .ticking ⟨0, 0⟩ } commands = s ∧ s.supply.Distinct ∧
      s.store.rows.map Product.key = [("Cup", "Acme")] ∧
      s.store.reserved = [("Lamp", "Acme")] ∧ s.transaction? 1 = none ∧ s.transaction? 2 = none ∧
      s.transaction? 3 = none ∧ (s.transaction? 4).isSome ∧ s.store.faults.inserts = 0 ∧
      (∃ detail, (s.insert 4 ⟨"Cup", "Acme", "", default⟩).2 = some (.error (.conflict detail))) ∧
      (∃ detail, (s.insert 4 ⟨"Lamp", "Acme", "", default⟩).2 = some (.error (.conflict detail))) ∧
      ¬ ∃ detail, (s.insert 4 ⟨"Vase", "Acme", "", default⟩).2 =
        some (.error (.conflict detail)) := by
  let reopened : List Command := [.begin, .insert 4 ⟨"Lamp", "Acme", "", default⟩]
  let failed : List Command := .fail { commits := 1 } :: .commit 3 :: reopened
  obtain ⟨s, hs, hdrawn, hrows, hreserved, hopen, hfaults, hcup, hlamp, hvase⟩ :
      ∃ s, run { supply := .ticking ⟨0, 0⟩ }
          (fourInserts ++ .rollback 1 :: .drop 2 :: failed) = s ∧
        (∀ j < s.supply.drawn, ∀ i < j, s.supply.idAt i ≠ s.supply.idAt j) ∧
        s.store.rows.map Product.key = [("Cup", "Acme")] ∧
        s.store.reserved = [("Lamp", "Acme")] ∧ (s.transaction? 4).isSome ∧
        s.store.faults.inserts = 0 ∧ (∃ row ∈ s.store.rows, row.key = ("Cup", "Acme")) ∧
        (∃ entry ∈ s.opened, ∃ p ∈ entry.2.pending, p.key = ("Lamp", "Acme")) ∧
        ¬ ((∃ row ∈ s.store.rows, row.key = ("Vase", "Acme")) ∨
          ∃ entry ∈ s.opened, ∃ p ∈ entry.2.pending, p.key = ("Vase", "Acme")) :=
    ⟨_, rfl, by decide, by decide, by decide, by decide, by decide, by decide, by decide,
      by decide⟩
  have hids : s.supply.Distinct := fun i j hij hj => hdrawn j hj i hij
  obtain ⟨-, -, -, -, -, hended, hconflict⟩ := keys_exclusive hs hids
  refine ⟨_, s, hs, hids, hrows, hreserved, ?_, ?_, ?_, hopen, hfaults, ?_, ?_, ?_⟩
  · exact hended fourInserts (.rollback 1) (.drop 2 :: failed) 1 rfl (by decide) rfl
  · exact hended (fourInserts ++ [.rollback 1]) (.drop 2) failed 2 rfl (by decide) rfl
  · exact hended (fourInserts ++ [.rollback 1, .drop 2, .fail { commits := 1 }]) (.commit 3)
      reopened 3 rfl (by decide) rfl
  · exact (hconflict 4 _ hopen hfaults).2 (.inl hcup)
  · exact (hconflict 4 _ hopen hfaults).2 (.inr hlamp)
  · exact fun hfound => hvase ((hconflict 4 _ hopen hfaults).1 hfound)

end Sessions

end ProductCatalog
