import ProductCatalog.Proofs.Store.History
import ProductCatalog.Proofs.Store.Keys

/-!
# Committed rows are the history of commits

From the history of a store its committed rows can be told, in their order,
and so can the keys that are reserved.  What a transaction has inserted is in
the rows from its commit on, all at once; of a transaction that ends
otherwise nothing remains.

## Main definitions

* `Store.Shows` — what readers and deletions find at a store.
* `Sessions.history` — the history of commands, from what inserts, commits and
  deletions have returned; a rollback or a drop ends a transaction that is open.

## Main results

* `Recorded.perform` — one command, and what the history says afterwards.
* `Sessions.rows_follow_history` — rows and reservations, and what can be
  seen of them.
-/

namespace ProductCatalog

/-! ## What can be seen of a store -/

/-- All that readers and deletions find at a store are the given rows. -/
structure Store.Shows (s : Store) (rows : List Product) : Prop where
  get : ∀ id, s.get? id = rows.find? fun p => p.id = id
  contains : ∀ id, s.contains id = true ↔ ∃ p ∈ rows, p.id = id
  list : ∃ listing : List Product, listing.Perm rows ∧ ∀ window,
    s.list window = ⟨(listing.drop window.offset).take window.limit, rows.length⟩
  delete : ∀ id, (∃ p ∈ rows, p.id = id) →
    s.delete id = ({ s with rows := rows.filter fun p => p.id != id }, .ok ())
  delete_missing : ∀ id, (∀ p ∈ rows, p.id ≠ id) → s.delete id = (s, .error .noSuchProduct)

theorem Store.shows_rows (s : Store) : s.Shows s.rows where
  get _ := rfl
  contains id := by simp [Store.contains, Store.get?]
  list := ⟨s.newestFirst, s.newestFirst_perm, fun _ => rfl⟩
  delete id hrow := by
    rcases s.delete_cases id with ⟨-, hdelete⟩ | ⟨hnone, -⟩
    · exact hdelete
    · obtain ⟨p, hp, hid⟩ := hrow
      exact absurd hid (hnone p hp)
  delete_missing id hnone := by
    rcases s.delete_cases id with ⟨⟨p, hp, hid⟩, -⟩ | ⟨-, hdelete⟩
    · exact absurd hid (hnone p hp)
    · exact hdelete

namespace Store.Shows

variable {s : Store} {rows : List Product} {p : Product}

/-- A product whose id no row has cannot be seen, let alone deleted. -/
theorem hidden (h : s.Shows rows) (hnone : ∀ row ∈ rows, row.id ≠ p.id) :
    s.get? p.id = none ∧ s.contains p.id = false ∧
      (∀ window, p ∉ (s.list window).items) ∧ s.delete p.id = (s, .error .noSuchProduct) := by
  refine ⟨?_, ?_, ?_, h.delete_missing p.id hnone⟩
  · rw [h.get, List.find?_eq_none]
    simpa using hnone
  · rw [Bool.eq_false_iff, ne_eq, h.contains]
    rintro ⟨row, hrow, hid⟩
    exact hnone row hrow hid
  · obtain ⟨listing, hperm, hlist⟩ := h.list
    intro window hmem
    rw [hlist] at hmem
    have hp : p ∈ rows := hperm.mem_iff.1 (List.mem_of_mem_drop (List.mem_of_mem_take hmem))
    exact hnone p hp rfl

end Store.Shows

/-! ## What is told of commands -/

namespace Sessions

/-- What can be told of a command afterwards. -/
def deed? (s : Sessions) : Command → Option Deed
  | .begin | .fail _ => none
  | .insert tx input =>
    match (s.insert tx input).2 with
    | some (.ok product) => some (.inserted tx product)
    | _ => none
  | .commit tx =>
    if (s.transaction? tx).isSome then
      match (s.commit tx).2 with
      | some (.ok ()) => some (.committed tx)
      | _ => some (.withdrawn tx)
    else none
  | .rollback tx | .drop tx =>
    if (s.transaction? tx).isSome then some (.withdrawn tx) else none
  | .delete id =>
    match (s.delete id).2 with
    | .ok () => some (.deleted id)
    | .error _ => none

/-- The history of commands. -/
def history (s : Sessions) : List Command → History
  | [] => []
  | command :: rest => (s.deed? command).toList ++ (s.perform command).history rest

theorem history_snoc (s : Sessions) (commands : List Command) (command : Command) :
    s.history (commands ++ [command]) =
      s.history commands ++ ((s.run commands).deed? command).toList := by
  induction commands generalizing s with
  | nil => exact (List.append_nil _).trans (List.nil_append _).symm
  | cons first rest ih =>
      show _ ++ history (s.perform first) (rest ++ [command]) = _
      rw [ih, ← List.append_assoc]
      rfl

/-! ## What commands do to a history -/

/-- A store and its transactions are what a history tells. -/
structure Recorded (h : History) (s : Sessions) : Prop where
  rows : s.store.rows = h.rows
  reserved : s.store.reserved = h.uncommitted.map Product.key
  pending : ∀ tx t, s.transaction? tx = some t → t.pending = h.products tx
  isOpen : ∀ tx, (s.transaction? tx).isSome ↔ tx < s.begun ∧ tx ∉ h.endings
  /-- What waits for a commit has been inserted with keys of its own. -/
  keys : (h.uncommitted.map Product.key).Nodup
  inserts_lt : ∀ entry ∈ h.inserts, entry.1 < s.begun
  endings_lt : ∀ tx ∈ h.endings, tx < s.begun
  ended_once : ∀ tx, .withdrawn tx ∈ h → .committed tx ∉ h

namespace Recorded

variable {h : History} {s s' : Sessions} {tx : Nat} {t : Transaction}

theorem empty (supply : Supply) : Recorded [] { supply := supply } where
  rows := rfl
  reserved := rfl
  pending _ _ ht := nomatch ht
  isOpen tx := by simp [transaction?]
  keys := .nil
  inserts_lt _ hentry := nomatch hentry
  endings_lt _ htx := nomatch htx
  ended_once _ htx := nomatch htx

/-- Faults and supplies are not recorded. -/
theorem congr (hr : Recorded h s) (hrows : s'.store.rows = s.store.rows)
    (hreserved : s'.store.reserved = s.store.reserved) (hbegun : s'.begun = s.begun)
    (htransaction : ∀ tx, s'.transaction? tx = s.transaction? tx) : Recorded h s' where
  rows := hrows.trans hr.rows
  reserved := hreserved.trans hr.reserved
  pending tx t ht := hr.pending tx t (htransaction tx ▸ ht)
  isOpen tx := by rw [htransaction, hbegun, hr.isOpen]
  keys := hr.keys
  inserts_lt := hbegun ▸ hr.inserts_lt
  endings_lt := hbegun ▸ hr.endings_lt
  ended_once := hr.ended_once

theorem not_ended (hr : Recorded h s) (ht : s.transaction? tx = some t) :
    tx < s.begun ∧ tx ∉ h.endings :=
  (hr.isOpen tx).1 (by rw [ht]; rfl)

/-- A transaction that has ended is open no longer. -/
theorem transaction?_ended (hr : Recorded h s) (htx : tx ∈ h.endings) :
    s.transaction? tx = none := by
  rw [← Option.not_isSome_iff_eq_none, hr.isOpen]
  exact fun hopen => hopen.2 htx

theorem begin (hr : Recorded h s) : Recorded h s.begin.1 where
  rows := hr.rows
  reserved := hr.reserved
  pending tx t ht := by
    rw [transaction?_begin, Option.or_eq_some_iff] at ht
    rcases ht with hold | ⟨-, hnew⟩
    · exact hr.pending tx t hold
    · split at hnew
      · rename_i htx
        -- nothing has been inserted into a transaction that had not begun
        obtain rfl := Option.some.inj hnew
        refine (List.eq_nil_iff_forall_not_mem.2 fun p hp => ?_).symm
        have hlt := hr.inserts_lt _ (History.mem_products.1 hp)
        exact absurd htx (Nat.ne_of_lt hlt)
      · cases hnew
  isOpen tx := by
    have hopen := hr.isOpen tx
    have hended := hr.endings_lt tx
    rw [transaction?_begin, Option.isSome_or, Bool.or_eq_true, hopen]
    show _ ↔ tx < s.begun + 1 ∧ _
    by_cases htx : tx = s.begun
    · subst htx
      have hnew : s.begun ∉ h.endings := fun hmem => Nat.lt_irrefl _ (hended hmem)
      simp [hnew]
    · have hlt : tx < s.begun + 1 ↔ tx < s.begun := by omega
      simp [htx, hlt]
  keys := hr.keys
  inserts_lt entry hentry := Nat.lt_succ_of_lt (hr.inserts_lt entry hentry)
  endings_lt tx htx := Nat.lt_succ_of_lt (hr.endings_lt tx htx)
  ended_once := hr.ended_once

/-- A product with a free key has been inserted into an open transaction. -/
theorem inserted (hr : Recorded h s) (ht : s.transaction? tx = some t) {p : Product}
    (hfree : p.key ∉ s.store.reserved) (hrows : s'.store.rows = s.store.rows)
    (hreserved : s'.store.reserved = s.store.reserved ++ [p.key]) (hbegun : s'.begun = s.begun)
    (hopened : s'.opened =
      s.opened.map fun entry => if entry.1 = tx then (tx, ⟨t.pending ++ [p]⟩) else entry) :
    Recorded (h ++ [.inserted tx p]) s' := by
  obtain ⟨hlt, hopen⟩ := hr.not_ended ht
  have htransaction : ∀ other, s'.transaction? other =
      (s.transaction? other).map fun old => if other = tx then ⟨t.pending ++ [p]⟩ else old := by
    intro other
    rw [transaction?, hopened, lookup_replaced]
    rfl
  have hendings : (h ++ [.inserted tx p] : History).endings = h.endings := by
    rw [History.endings_snoc]
    exact List.append_nil _
  have huncommitted : (h ++ [.inserted tx p] : History).uncommitted.map Product.key =
      h.uncommitted.map Product.key ++ [p.key] := by
    rw [History.uncommitted, History.waiting_inserted p hopen, List.map_append, List.map_append]
    rfl
  refine ⟨?_, ?_, ?_, ?_, ?_, ?_, ?_, ?_⟩
  · rw [hrows, hr.rows, History.rows_inserted p hopen]
  · rw [hreserved, hr.reserved, huncommitted]
  · intro other t' ht'
    rw [htransaction, Option.map_eq_some_iff] at ht'
    obtain ⟨old, hold, rfl⟩ := ht'
    rw [History.products_inserted]
    by_cases ho : other = tx
    · subst ho
      obtain rfl := Option.some.inj (ht.symm.trans hold)
      simp [hr.pending _ _ ht]
    · rw [if_neg ho, if_neg (Ne.symm ho), List.append_nil]
      exact hr.pending other old hold
  · intro other
    rw [htransaction, Option.isSome_map, hr.isOpen, hbegun, hendings]
  · rw [huncommitted, ← hr.reserved]
    exact List.nodup_append_comm.2 (List.nodup_cons.2 ⟨hfree, hr.reserved ▸ hr.keys⟩)
  · intro entry hentry
    rw [History.inserts_snoc] at hentry
    rw [hbegun]
    rcases List.mem_append.1 hentry with hold | hnew
    · exact hr.inserts_lt entry hold
    · obtain rfl := List.mem_singleton.1 hnew
      exact hlt
  · rw [hendings, hbegun]
    exact hr.endings_lt
  · intro other hother
    have hmem : .withdrawn other ∈ h := by simpa using hother
    simpa using hr.ended_once other hmem

/-- The end of a transaction gives back the reservations of its products, and no others. -/
theorem reserved_release (hr : Recorded h s) (ht : s.transaction? tx = some t) {deed : Deed}
    (hend : deed.end? = some tx) (hinsert : deed.insert? = none) :
    (s.store.release t).reserved = (h ++ [deed] : History).uncommitted.map Product.key := by
  show s.store.reserved.filter (fun key => !t.keys.contains key) = _
  have hkeys := hr.keys
  rw [History.uncommitted, List.map_map] at hkeys
  rw [hr.reserved, History.uncommitted, History.uncommitted, History.waiting_ended hend hinsert,
    List.map_map, List.map_map, List.filter_map]
  congr 1
  refine List.filter_congr fun entry hentry => ?_
  -- its key is one that this transaction has reserved only if it is inserted by this transaction
  have hown : entry.2.key ∈ t.keys ↔ entry.1 = tx := by
    rw [Transaction.keys, hr.pending tx t ht, List.mem_map]
    constructor
    · rintro ⟨p, hp, hkey⟩
      have hwaiting : (tx, p) ∈ h.waiting :=
        History.mem_waiting.2 ⟨History.mem_products.1 hp, (hr.not_ended ht).2⟩
      have heq : (tx, p) = entry := List.inj_on_of_nodup_map hkeys hwaiting hentry hkey
      rw [← heq]
    · rintro rfl
      exact ⟨entry.2, History.mem_products.2 (History.mem_waiting.1 hentry).1, rfl⟩
  by_cases htx : entry.1 = tx
  · simp [htx, hown.2 htx]
  · simp [htx, mt hown.1 htx]

/-- An open transaction has ended. -/
theorem ended (hr : Recorded h s) (ht : s.transaction? tx = some t) (deed : Deed)
    (hend : deed.end? = some tx) (hinsert : deed.insert? = none) {store : Store}
    (hrows : store.rows = (h ++ [deed] : History).rows)
    (hreserved : store.reserved = (s.store.release t).reserved) :
    Recorded (h ++ [deed]) ({ s with store := store }.close tx) := by
  obtain ⟨hlt, hopen⟩ := hr.not_ended ht
  have htransaction : ∀ other, ({ s with store := store }.close tx).transaction? other =
      if other = tx then none else s.transaction? other := fun other =>
    transaction?_close { s with store := store } tx other
  have hendings : (h ++ [deed] : History).endings = h.endings ++ [tx] := by
    rw [History.endings_snoc, hend]
    rfl
  refine ⟨hrows, hreserved.trans (hr.reserved_release ht hend hinsert), ?_, ?_, ?_, ?_, ?_, ?_⟩
  · intro other t' ht'
    rw [htransaction] at ht'
    split at ht'
    · cases ht'
    · rw [History.products_of_no_insert hinsert]
      exact hr.pending other t' ht'
  · intro other
    rw [htransaction, hendings, List.mem_append, List.mem_singleton, not_or]
    by_cases ho : other = tx
    · simp [ho]
    · rw [if_neg ho, hr.isOpen, and_iff_left ho]
      exact Iff.rfl
  · rw [← hr.reserved_release ht hend hinsert]
    exact (hr.reserved ▸ hr.keys).filter _
  · intro entry hentry
    rw [History.inserts_snoc, hinsert] at hentry
    exact hr.inserts_lt entry (by simpa using hentry)
  · intro other hother
    rw [hendings] at hother
    rcases List.mem_append.1 hother with hold | hnew
    · exact hr.endings_lt other hold
    · obtain rfl := List.mem_singleton.1 hnew
      exact hlt
  · intro other hwithdrawn hcommitted
    have hlast : ∀ old ∈ h, old.end? ≠ some tx := fun old hold heq =>
      hopen (List.mem_filterMap.2 ⟨old, hold, heq⟩)
    rcases List.mem_append.1 hwithdrawn with hold | hnew
    · rcases List.mem_append.1 hcommitted with hold' | hnew'
      · exact hr.ended_once other hold hold'
      · obtain rfl := List.mem_singleton.1 hnew'
        exact hlast _ hold hend
    · obtain rfl := List.mem_singleton.1 hnew
      rcases List.mem_append.1 hcommitted with hold' | hnew'
      · exact hlast _ hold' hend
      · cases List.mem_singleton.1 hnew'

/-- A row has been deleted. -/
theorem deleted (hr : Recorded h s) (id : ProductId)
    (hrows : s'.store.rows = s.store.rows.filter fun p => p.id != id)
    (hreserved : s'.store.reserved = s.store.reserved) (hbegun : s'.begun = s.begun)
    (htransaction : ∀ tx, s'.transaction? tx = s.transaction? tx) :
    Recorded (h ++ [.deleted id]) s' := by
  have huncommitted : (h ++ [.deleted id] : History).uncommitted = h.uncommitted := by
    rw [History.uncommitted, History.waiting_deleted, History.uncommitted]
  have hinserts : (h ++ [.deleted id] : History).inserts = h.inserts := by
    rw [History.inserts_snoc]
    exact List.append_nil _
  have hendings : (h ++ [.deleted id] : History).endings = h.endings := by
    rw [History.endings_snoc]
    exact List.append_nil _
  refine ⟨?_, ?_, ?_, ?_, ?_, ?_, ?_, ?_⟩
  · rw [hrows, hr.rows, History.rows_deleted]
    refine List.filter_congr fun p _ => ?_
    rw [Bool.eq_iff_iff, bne_iff_ne, decide_eq_true_iff]
  · rw [hreserved, hr.reserved, huncommitted]
  · intro tx t ht
    rw [htransaction] at ht
    rw [hr.pending tx t ht, History.products_of_no_insert rfl]
  · intro tx
    rw [htransaction, hbegun, hendings, hr.isOpen]
  · rw [huncommitted]
    exact hr.keys
  · rw [hinserts, hbegun]
    exact hr.inserts_lt
  · rw [hendings, hbegun]
    exact hr.endings_lt
  · intro tx hwithdrawn
    have hmem : .withdrawn tx ∈ h := by simpa using hwithdrawn
    simpa using hr.ended_once tx hmem

/-- An insert does what is told of it. -/
theorem insert (hr : Recorded h s) (tx : Nat) (input : NewProduct) :
    Recorded (h ++ (s.deed? (.insert tx input)).toList) (s.perform (.insert tx input)) := by
  show Recorded _ (s.insert tx input).1
  rw [deed?, Sessions.insert]
  cases ht : s.transaction? tx with
  | none => exact (List.append_nil h).symm ▸ hr
  | some t =>
      -- an insert that fails puts the transaction back as it was
      have hsame : ∀ other,
          (s.opened.map fun entry => if entry.1 = tx then (tx, t) else entry).lookup other =
            s.opened.lookup other := by
        intro other
        rw [lookup_replaced]
        show (s.transaction? other).map _ = s.transaction? other
        by_cases ho : other = tx
        · simp [ho, ht]
        · simp [ho]
      unfold Store.insertFrom
      rcases s.store.insert_cases t input s.supply.id s.supply.now with
        ⟨-, faults, hinsert⟩ | ⟨-, -, hinsert⟩ | ⟨-, hfree, hinsert⟩
      · simp only [hinsert]
        exact (List.append_nil h).symm ▸ hr.congr rfl rfl rfl hsame
      · simp only [hinsert]
        exact (List.append_nil h).symm ▸ hr.congr rfl rfl rfl hsame
      · simp only [hinsert]
        have hkey : (input.stamped s.supply.id s.supply.now).key ∉ s.store.reserved := by
          rw [Store.keyTaken, Bool.or_eq_false_iff] at hfree
          simpa using hfree.1
        exact hr.inserted ht hkey rfl rfl rfl rfl

theorem commit (hr : Recorded h s) (tx : Nat) :
    Recorded (h ++ (s.deed? (.commit tx)).toList) (s.perform (.commit tx)) := by
  show Recorded _ (s.commit tx).1
  rw [deed?, Sessions.commit]
  cases ht : s.transaction? tx with
  | none => exact (List.append_nil h).symm ▸ hr
  | some t =>
      simp only [Option.isSome_some, if_true]
      unfold Store.commit
      cases s.store.faults.commits with
      | zero =>
          have hrows := History.rows_committed h tx
          rw [← hr.pending tx t ht, ← hr.rows] at hrows
          exact hr.ended ht (.committed tx) rfl rfl hrows.symm rfl
      | succ n =>
          have hrows := History.rows_withdrawn h tx
          rw [← hr.rows] at hrows
          exact hr.ended ht (.withdrawn tx) rfl rfl hrows.symm rfl

/-- A transaction has been rolled back or dropped. -/
theorem rollback (hr : Recorded h s) (tx : Nat) :
    Recorded (h ++ (s.deed? (.rollback tx)).toList) (s.perform (.rollback tx)) := by
  show Recorded _ (s.rollback tx).1
  rw [deed?, Sessions.rollback]
  cases ht : s.transaction? tx with
  | none => exact (List.append_nil h).symm ▸ hr
  | some t =>
      have hrows := History.rows_withdrawn h tx
      rw [← hr.rows] at hrows
      exact hr.ended ht (.withdrawn tx) rfl rfl hrows.symm rfl

theorem delete (hr : Recorded h s) (id : ProductId) :
    Recorded (h ++ (s.deed? (.delete id)).toList) (s.perform (.delete id)) := by
  show Recorded _ (s.delete id).1
  rw [deed?, Sessions.delete]
  rcases s.store.delete_cases id with ⟨-, hdelete⟩ | ⟨-, hdelete⟩
  · rw [hdelete]
    exact hr.deleted id rfl rfl rfl fun _ => rfl
  · rw [hdelete]
    exact (List.append_nil h).symm ▸ hr

/-- Every command does to a store what is told of it. -/
theorem perform (hr : Recorded h s) (command : Command) :
    Recorded (h ++ (s.deed? command).toList) (s.perform command) := by
  cases command with
  | begin => exact (List.append_nil h).symm ▸ hr.begin
  | insert tx input => exact hr.insert tx input
  | commit tx => exact hr.commit tx
  | rollback tx | drop tx => exact hr.rollback tx
  | delete id => exact hr.delete id
  | fail faults => exact (List.append_nil h).symm ▸ hr.congr rfl rfl rfl fun _ => rfl

theorem run (supply : Supply) (commands : List Command) :
    Recorded (history { supply := supply } commands)
      (Sessions.run { supply := supply } commands) := by
  induction commands using List.reverseRecOn with
  | nil => exact .empty supply
  | append_singleton commands command ih =>
      rw [history_snoc, run_append_singleton]
      exact ih.perform command

/-- A product whose transaction has not ended waits with it. -/
theorem mem_waiting (hr : Recorded h s) {p : Product} (hp : p ∈ h.uncommitted) :
    p ∈ s.waiting := by
  obtain ⟨⟨tx, p⟩, hentry, rfl⟩ := List.mem_map.1 hp
  obtain ⟨hinserted, hopen⟩ := History.mem_waiting.1 hentry
  obtain ⟨t, ht⟩ := Option.isSome_iff_exists.1 <|
    (hr.isOpen tx).2 ⟨hr.inserts_lt _ hinserted, hopen⟩
  refine List.mem_flatMap.2 ⟨(tx, t), mem_of_transaction? ht, ?_⟩
  show p ∈ t.pending
  rw [hr.pending tx t ht]
  exact History.mem_products.2 hinserted

end Recorded

/--
Whatever transactions do at a store, one beside another and with any faults:
the rows are the products that successful inserts have returned to the
transactions committed successfully, in the order of the commits and for one
commit in the order of the inserts, without those whose ids have been deleted
later.  Reserved are the keys of what open transactions have inserted.  All
that can be seen and deleted are these rows, and nothing that is uncommitted,
provided that ids are not drawn twice.  A transaction that has ended is open
no longer, and one that has been rolled back or dropped, or whose commit has
failed, has left rows and reservations as they were without it.
-/
theorem rows_follow_history {supply : Supply} {commands : List Command} {s : Sessions}
    {h : History} (hs : run { supply := supply } commands = s)
    (hh : history { supply := supply } commands = h) :
    s.store.rows = h.rows ∧ s.store.reserved = h.uncommitted.map Product.key ∧
      s.store.Shows h.rows ∧
      (s.supply.Distinct → ∀ p ∈ h.uncommitted,
        s.store.get? p.id = none ∧ s.store.contains p.id = false ∧
          (∀ window, p ∉ (s.store.list window).items) ∧
          s.store.delete p.id = (s.store, .error .noSuchProduct)) ∧
      (∀ tx ∈ h.endings, s.transaction? tx = none) ∧
      ∀ tx, .withdrawn tx ∈ h →
        (h.without tx).rows = s.store.rows ∧
          (h.without tx).uncommitted.map Product.key = s.store.reserved := by
  have hr : Recorded h s := by
    subst hs hh
    exact Recorded.run supply commands
  have hshows : s.store.Shows h.rows := hr.rows ▸ s.store.shows_rows
  refine ⟨hr.rows, hr.reserved, hshows, ?_, fun tx htx => hr.transaction?_ended htx, ?_⟩
  · intro hids p hp
    have hregular : s.Regular := by
      subst hs
      exact (Regular.empty supply).run commands hids
    have hapart := hregular.reserves.ids
    rw [List.map_append, List.nodup_append, hr.rows] at hapart
    refine hshows.hidden fun row hrow => ?_
    exact hapart.2.2 _ (List.mem_map_of_mem hrow) _ (List.mem_map_of_mem (hr.mem_waiting hp))
  · intro tx htx
    have hended := History.mem_endings_of_withdrawn htx
    refine ⟨(History.rows_without (hr.ended_once tx htx)).trans hr.rows.symm, ?_⟩
    rw [History.uncommitted, History.waiting_without hended, hr.reserved, History.uncommitted]

/-- One transaction commits, a second one is rolled back, a third one dropped, and the commit of
a fourth one fails.  A fifth one goes on, and a row is deleted. -/
theorem rows_follow_history_of_overlap :
    ∃ commands s h, run { supply := .ticking ⟨0, 0⟩ } commands = s ∧
      history { supply := .ticking ⟨0, 0⟩ } commands = h ∧ s.supply.Distinct ∧
      s.store.rows.map Product.name = ["Vase"] ∧ h.rows.map Product.name = ["Vase"] ∧
      s.store.reserved = [("Bowl", "Acme"), ("Lamp", "Acme")] ∧
      (∀ tx ∈ [1, 2, 3], .withdrawn tx ∈ h ∧ s.transaction? tx = none ∧
        (h.without tx).rows.map Product.name = ["Vase"]) ∧
      ∃ p ∈ h.uncommitted, p.name = "Bowl" ∧ s.store.contains p.id = false ∧
        s.store.delete p.id = (s.store, .error .noSuchProduct) := by
  obtain ⟨commands, s, h, hs, hh, hdrawn, hwithdrawn, hrows, hreserved, p, hp, hname⟩ :
      ∃ commands s h, run { supply := .ticking ⟨0, 0⟩ } commands = s ∧
        history { supply := .ticking ⟨0, 0⟩ } commands = h ∧
        (∀ j < s.supply.drawn, ∀ i < j, s.supply.idAt i ≠ s.supply.idAt j) ∧
        (∀ tx ∈ [1, 2, 3], .withdrawn tx ∈ h) ∧ s.store.rows.map Product.name = ["Vase"] ∧
        s.store.reserved = [("Bowl", "Acme"), ("Lamp", "Acme")] ∧
        ∃ p ∈ h.uncommitted, p.name = "Bowl" :=
    ⟨[.begin, .begin, .begin, .begin, .begin, .insert 0 ⟨"Cup", "Acme", "", default⟩,
        .insert 1 ⟨"Lamp", "Acme", "", default⟩, .insert 0 ⟨"Vase", "Acme", "", default⟩,
        .insert 2 ⟨"Jug", "Acme", "", default⟩, .insert 3 ⟨"Pot", "Acme", "", default⟩,
        .insert 4 ⟨"Bowl", "Acme", "", default⟩, .commit 0, .rollback 1, .drop 2,
        .fail { commits := 1 }, .commit 3, .delete (.timed 0 0),
        .insert 4 ⟨"Lamp", "Acme", "", default⟩],
      _, _, rfl, rfl, by decide, by decide, by decide, by decide, by decide⟩
  have hids : s.supply.Distinct := fun i j hij hj => hdrawn j hj i hij
  obtain ⟨hrows', -, -, hhidden, hended, hwithout⟩ := rows_follow_history hs hh
  have hrows'' : h.rows.map Product.name = ["Vase"] := hrows' ▸ hrows
  obtain ⟨-, hcontains, -, hdelete⟩ := hhidden hids p hp
  refine ⟨commands, s, h, hs, hh, hids, hrows, hrows'', hreserved, fun tx htx => ?_, p, hp, hname,
    hcontains, hdelete⟩
  have hw := hwithdrawn tx htx
  refine ⟨hw, hended tx (History.mem_endings_of_withdrawn hw), ?_⟩
  rw [(hwithout tx hw).1, hrows]

end Sessions

end ProductCatalog
