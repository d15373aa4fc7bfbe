import Mathlib.Data.List.Perm.Subperm
import Mathlib.Data.List.Sort
import Mathlib.Data.List.Sublists
import ProductCatalog.Proofs.Store.Record

/-!
# Pages of a listing

The rows are kept in the order of their commits and listed by the instants of
their creation, so that the order of a listing is none that the rows have at
any moment.  A page is a window of the listing, and the pages of one limit,
one behind another, are the listing again.

Every product is inserted once, and the clock is read once for it.  With a
clock that advances from reading to reading a listing is therefore the
products inserted, backwards, without those that are not committed; it does
not matter in which order their transactions have ended.

## Main definitions

* `Store.pages` — the pages of one limit, up to the end of the listing.
* `Supply.Advances` — later readings of the clock are later instants.

## Main results

* `Recorded.rows_subperm` — rows and products that wait are inserted products.
* `Sessions.readings_of_inserts` — each insert draws one reading of the clock.
* `Sessions.pages_tile` — the listing of a store, and its pages.
-/

namespace ProductCatalog

/-! ## Windows -/

namespace Pagination

/-- A limit within bounds and an offset are taken as they are. -/
theorem clamped_natCast {limit : Nat} (hpos : 0 < limit) (hle : limit ≤ maxLimit) (offset : Nat) :
    clamped (some limit) (some offset) = ⟨limit, offset⟩ := by
  have hlimit : min (limit : Int).toNat maxLimit = limit := by
    rw [Int.toNat_natCast, Nat.min_eq_left hle]
  have hoffset : (if 0 < (offset : Int) then (offset : Int).toNat else defaultOffset) = offset := by
    split
    · exact Int.toNat_natCast offset
    · unfold defaultOffset
      omega
  simp only [clamped, if_pos (Int.natCast_pos.2 hpos), hlimit, hoffset]

end Pagination

/-- Windows of one length, one behind another, are a beginning of the list. -/
theorem flatMap_windows {α : Type} (l : List α) (limit n : Nat) :
    ((List.range n).flatMap fun k => (l.drop (k * limit)).take limit) = l.take (n * limit) := by
  induction n with
  | zero => rw [Nat.zero_mul, List.take_zero, List.range_zero, List.flatMap_nil]
  | succ n ih =>
      rw [List.range_succ, List.flatMap_append, ih, List.flatMap_singleton, Nat.succ_mul,
        List.take_add]

/-- Windows of one length up to the end of the list are the whole list. -/
theorem flatMap_windows_length {α : Type} (l : List α) (limit : Nat) (hpos : 0 < limit) :
    ((List.range (l.length / limit + 1)).flatMap fun k => (l.drop (k * limit)).take limit) = l := by
  have henough : l.length ≤ (l.length / limit + 1) * limit := by
    have hdiv := Nat.div_add_mod l.length limit
    have hmod := Nat.mod_lt l.length hpos
    rw [Nat.succ_mul, Nat.mul_comm]
    omega
  rw [flatMap_windows, List.take_of_length_le henough]

namespace Store

variable {s : Store}

/-- The pages of one limit, from the first row on and up to the end of the listing. -/
def pages (s : Store) (limit : Nat) : List ProductPage :=
  (List.range (s.rows.length / limit + 1)).map fun (k : Nat) =>
    s.list (.clamped (some limit) (some (k * limit : Nat)))

/-- No product of a listing has been created after one that stands before it. -/
theorem newestFirst_sorted (s : Store) :
    s.newestFirst.Pairwise fun p q => q.createdAt.le p.createdAt = true := by
  refine List.pairwise_mergeSort ?_ ?_ _
  · intro p q r hpq hqr
    exact Instant.le_trans hqr hpq
  · intro p q
    exact Instant.le_total ..

theorem length_newestFirst (s : Store) : s.newestFirst.length = s.rows.length :=
  s.newestFirst_perm.length_eq

/-- The pages of one limit are the whole listing. -/
theorem flatMap_pages {limit : Nat} (hpos : 0 < limit) (hle : limit ≤ Pagination.maxLimit) :
    (s.pages limit).flatMap (·.items) = s.newestFirst := by
  have hpage : ∀ k : Nat, (s.list (.clamped (some limit) (some (k * limit : Nat)))).items =
      (s.newestFirst.drop (k * limit)).take limit := fun k => by
    rw [Pagination.clamped_natCast hpos hle]
    rfl
  rw [pages, List.flatMap_map, ← length_newestFirst]
  simp only [hpage]
  exact flatMap_windows_length _ limit hpos

/-- A page behind the end of the listing is empty. -/
theorem list_of_length_le {limit offset : Nat} (hpos : 0 < limit)
    (hle : limit ≤ Pagination.maxLimit) (hoffset : s.rows.length ≤ offset) :
    s.list (.clamped (some limit) (some offset)) = ⟨[], s.rows.length⟩ := by
  rw [Pagination.clamped_natCast hpos hle, Store.list,
    List.drop_of_length_le (s.length_newestFirst.trans_le hoffset), List.take_nil]

end Store

/-! ## Inserts and readings of the clock -/

/-- Later readings of the clock, as far as it has been read, are later instants. -/
def Supply.Advances (s : Supply) : Prop :=
  ∀ i j, i < j → j < s.drawn → (s.timeAt j).le (s.timeAt i) = false

namespace History

variable {h : History} {tx : Nat}

/-- The end of a transaction divides what has not been committed into its products and others. -/
theorem uncommitted_perm {deed : Deed} (hopen : tx ∉ h.endings) (hend : deed.end? = some tx)
    (hinsert : deed.insert? = none) :
    h.uncommitted.Perm (h.products tx ++ uncommitted (h ++ [deed])) := by
  have hown : h.waiting.filter (fun entry => entry.1 = tx) =
      h.inserts.filter fun entry => entry.1 = tx := by
    rw [waiting, List.filter_filter]
    refine List.filter_congr fun entry _ => ?_
    by_cases htx : entry.1 = tx
    · simp [htx, hopen]
    · simp [htx]
  have hparts := List.filter_append_perm (fun entry => decide (entry.1 = tx)) h.waiting
  simp only [← decide_not] at hparts
  rw [hown, ← waiting_ended hend hinsert] at hparts
  have hproducts := hparts.map Prod.snd
  rw [List.map_append] at hproducts
  exact hproducts.symm

end History

namespace Sessions

/-- What can be told of a command, and what it draws. -/
theorem deed_cases (s : Sessions) (command : Command) :
    (s.deed? command = none ∧ (s.perform command).supply = s.supply) ∨
      (∃ tx, ∃ input : NewProduct, (s.transaction? tx).isSome ∧
        s.deed? command = some (.inserted tx (input.stamped s.supply.id s.supply.now)) ∧
        (s.perform command).supply = s.supply.next) ∨
      (∃ tx deed, (s.transaction? tx).isSome ∧ (deed = .committed tx ∨ deed = .withdrawn tx) ∧
        s.deed? command = some deed ∧ (s.perform command).supply = s.supply) ∨
      ∃ id, s.deed? command = some (.deleted id) ∧ (s.perform command).supply = s.supply := by
  cases command with
  | begin | fail => exact .inl ⟨rfl, rfl⟩
  | insert tx input =>
      simp only [deed?, perform, Sessions.insert]
      cases ht : s.transaction? tx with
      | none => exact .inl ⟨rfl, rfl⟩
      | some t =>
          unfold Store.insertFrom
          rcases s.store.insert_cases t input s.supply.id s.supply.now with
            ⟨-, faults, hinsert⟩ | ⟨-, -, hinsert⟩ | ⟨-, -, hinsert⟩
          · exact .inl (by simp only [hinsert, and_self])
          · exact .inl (by simp only [hinsert, and_self])
          · refine .inr (.inl ⟨tx, input, by rw [ht]; rfl, ?_, ?_⟩)
            · simp only [hinsert]
            · simp only [hinsert]
  | commit tx =>
      simp only [deed?, perform, Sessions.commit]
      cases ht : s.transaction? tx with
      | none => exact .inl ⟨rfl, rfl⟩
      | some t =>
          have hopen : (s.transaction? tx).isSome := by rw [ht]; rfl
          unfold Store.commit
          cases s.store.faults.commits with
          | zero => exact .inr (.inr (.inl ⟨tx, .committed tx, hopen, .inl rfl, rfl, rfl⟩))
          | succ n => exact .inr (.inr (.inl ⟨tx, .withdrawn tx, hopen, .inr rfl, rfl, rfl⟩))
  | rollback tx | drop tx =>
      simp only [deed?, perform, Sessions.rollback]
      cases ht : s.transaction? tx with
      | none => exact .inl ⟨rfl, rfl⟩
      | some t =>
          have hopen : (s.transaction? tx).isSome := by rw [ht]; rfl
          exact .inr (.inr (.inl ⟨tx, .withdrawn tx, hopen, .inr rfl, rfl, rfl⟩))
  | delete id =>
      simp only [deed?, perform, Sessions.delete]
      rcases s.store.delete_cases id with ⟨-, hdelete⟩ | ⟨-, hdelete⟩
      · exact .inr (.inr (.inr ⟨id, by simp only [hdelete], trivial⟩))
      · exact .inl ⟨by simp only [hdelete], trivial⟩

/-- Every insert draws one reading of the clock, in order. -/
theorem readings_of_inserts (supply : Supply) (commands : List Command) :
    ((history { supply := supply } commands).inserts.map fun entry => entry.2.createdAt) =
        (List.range' supply.drawn
          (history { supply := supply } commands).inserts.length).map supply.timeAt ∧
      (Sessions.run { supply := supply } commands).supply = { supply with
        drawn := supply.drawn + (history { supply := supply } commands).inserts.length } := by
  induction commands using List.reverseRecOn with
  | nil => exact ⟨rfl, rfl⟩
  | append_singleton commands command ih =>
      obtain ⟨htimes, hsupply⟩ := ih
      rw [history_snoc, run_append_singleton]
      rcases (Sessions.run { supply := supply } commands).deed_cases command with
        ⟨hdeed, hnext⟩ | ⟨tx, input, -, hdeed, hnext⟩ | ⟨tx, deed, -, hend, hdeed, hnext⟩ |
        ⟨id, hdeed, hnext⟩
      · rw [hdeed, hnext, Option.toList_none, List.append_nil]
        exact ⟨htimes, hsupply⟩
      · rw [hdeed, hnext, hsupply, Option.toList_some, History.inserts_snoc, List.map_append,
          htimes]
        simp only [Deed.insert?, Option.toList_some, List.length_append, List.length_singleton,
          List.range'_1_concat, List.map_append]
        exact ⟨rfl, rfl⟩
      · have hinsert : deed.insert? = none := by
          rcases hend with rfl | rfl <;> rfl
        rw [hdeed, hnext, Option.toList_some, History.inserts_snoc, hinsert, Option.toList_none,
          List.append_nil]
        exact ⟨htimes, hsupply⟩
      · rw [hdeed, hnext, Option.toList_some, History.inserts_snoc, Deed.insert?,
          Option.toList_none, List.append_nil]
        exact ⟨htimes, hsupply⟩

/-- With a clock that advances every product inserted is younger than those before it. -/
theorem inserts_ascending {supply : Supply} {commands : List Command}
    (hclock : (Sessions.run { supply := supply } commands).supply.Advances) :
    (history { supply := supply } commands).inserts.Pairwise fun x y =>
      y.2.createdAt.le x.2.createdAt = false := by
  obtain ⟨htimes, hsupply⟩ := readings_of_inserts supply commands
  rw [hsupply] at hclock
  have hascending : (((history { supply := supply } commands).inserts.map
      fun entry => entry.2.createdAt).Pairwise fun t u => u.le t = false) := by
    rw [htimes, List.pairwise_map]
    refine List.Pairwise.imp_of_mem ?_ List.pairwise_lt_range'
    intro i j _ hj hij
    exact hclock i j hij (List.mem_range'_1.1 hj).2
  exact List.pairwise_map.1 hascending

namespace Recorded

/-- Every row and every product that waits has been inserted, once for all. -/
theorem rows_subperm (supply : Supply) (commands : List Command) :
    ((history { supply := supply } commands).rows ++
      (history { supply := supply } commands).uncommitted).Subperm
      ((history { supply := supply } commands).inserts.map (·.2)) := by
  induction commands using List.reverseRecOn with
  | nil => exact .refl _
  | append_singleton commands command ih =>
      have hr := Recorded.run supply commands
      have hopen : ∀ tx, ((Sessions.run { supply := supply } commands).transaction? tx).isSome →
          tx ∉ (history { supply := supply } commands).endings :=
        fun tx htx => ((hr.isOpen tx).1 htx).2
      rw [history_snoc]
      generalize history { supply := supply } commands = h at ih hopen
      rcases (Sessions.run { supply := supply } commands).deed_cases command with
        ⟨hdeed, -⟩ | ⟨tx, input, htx, hdeed, -⟩ | ⟨tx, deed, htx, hend, hdeed, -⟩ | ⟨id, hdeed, -⟩
      · rw [hdeed, Option.toList_none, List.append_nil]
        exact ih
      · rw [hdeed, Option.toList_some, History.rows_inserted _ (hopen tx htx), History.uncommitted,
          History.waiting_inserted _ (hopen tx htx), History.inserts_snoc, List.map_append,
          List.map_append, ← List.append_assoc]
        exact ih.append (.refl _)
      · have hinsert : deed.insert? = none := by
          rcases hend with rfl | rfl <;> rfl
        have hended : deed.end? = some tx := by
          rcases hend with rfl | rfl <;> rfl
        have hperm := History.uncommitted_perm (hopen tx htx) hended hinsert
        rw [hdeed, Option.toList_some, History.inserts_snoc, hinsert, Option.toList_none,
          List.append_nil]
        rcases hend with rfl | rfl
        · rw [History.rows_committed, List.append_assoc]
          exact ((hperm.symm.append_left _).subperm).trans ih
        · have hless := (List.sublist_append_right _ _).subperm.trans hperm.symm.subperm
          rw [History.rows_withdrawn]
          exact ((List.Subperm.refl _).append hless).trans ih
      · rw [hdeed, Option.toList_some, History.rows_deleted, History.uncommitted,
          History.waiting_deleted, History.inserts_snoc, Deed.insert?, Option.toList_none,
          List.append_nil]
        exact ((List.filter_sublist.append_right _).subperm).trans ih

/-- With a clock that advances a listing is, backwards, in the order of the inserts. -/
theorem reverse_newestFirst {supply : Supply} {commands : List Command}
    (hclock : (Sessions.run { supply := supply } commands).supply.Advances) :
    (Sessions.run { supply := supply } commands).store.newestFirst.reverse.Sublist
      ((history { supply := supply } commands).inserts.map (·.2)) := by
  have hr := Recorded.run supply commands
  have hinserted : ((history { supply := supply } commands).inserts.map (·.2)).Pairwise
      fun p q => q.createdAt.le p.createdAt = false :=
    List.pairwise_map.2 (inserts_ascending hclock)
  have hrows := (List.sublist_append_left _ _).subperm.trans (rows_subperm supply commands)
  rw [← hr.rows] at hrows
  -- the rows in the order of their inserts
  obtain ⟨ordered, hperm, hsublist⟩ := hrows
  have hascending := hinserted.sublist hsublist
  have htimes : (ordered.map Product.createdAt).Nodup := by
    rw [List.Nodup, List.pairwise_map]
    refine hascending.imp fun hlt heq => ?_
    rw [heq, Instant.le_refl] at hlt
    cases hlt
  have hlisted : (Sessions.run { supply := supply } commands).store.newestFirst.reverse.Perm
      ordered :=
    (List.reverse_perm _).trans ((Store.newestFirst_perm _).trans hperm.symm)
  have hlisting := List.pairwise_reverse.2
    (Sessions.run { supply := supply } commands).store.newestFirst_sorted
  have hordered : ordered.Pairwise fun p q => p.createdAt.le q.createdAt = true := by
    refine hascending.imp fun {p q} hlt => ?_
    have htotal := Instant.le_total p.createdAt q.createdAt
    rwa [hlt, Bool.or_false] at htotal
  have heq : (Sessions.run { supply := supply } commands).store.newestFirst.reverse = ordered := by
    refine hlisted.eq_of_pairwise ?_ hlisting hordered
    intro p q hp hq hpq hqp
    exact List.inj_on_of_nodup_map htimes (hlisted.mem_iff.1 hp) hq (Instant.le_antisymm hpq hqp)
  rw [heq]
  exact hsublist

end Recorded

/--
Whatever has been done at a store, it has one listing of its rows, each of
them once and none created after one that stands before it, and every page is
a window of this listing with the number of all rows.  If the clock advances
from insert to insert, the listing is the latest insert first, in whatever
order the transactions have been committed.  For every limit the pages from
one offset to the next concatenate to the listing, and from its end on pages
are empty.
-/
theorem pages_tile {supply : Supply} {commands : List Command} {s : Sessions} {h : History}
    (hs : Sessions.run { supply := supply } commands = s)
    (hh : history { supply := supply } commands = h) :
    ∃ listing : List Product, listing.Perm s.store.rows ∧
      (listing.Pairwise fun p q => q.createdAt.le p.createdAt = true) ∧
      (∀ window, s.store.list window =
        ⟨(listing.drop window.offset).take window.limit, s.store.rows.length⟩) ∧
      (s.supply.Advances → listing.reverse.Sublist (h.inserts.map (·.2))) ∧
      ∀ limit, 0 < limit → limit ≤ Pagination.maxLimit →
        (s.store.pages limit).flatMap (·.items) = listing ∧
          ∀ offset : Nat, s.store.rows.length ≤ offset →
            s.store.list (.clamped (some limit) (some offset)) = ⟨[], s.store.rows.length⟩ := by
  refine ⟨s.store.newestFirst, s.store.newestFirst_perm, s.store.newestFirst_sorted,
    fun _ => rfl, ?_, ?_⟩
  · intro hclock
    subst hs hh
    exact Recorded.reverse_newestFirst hclock
  · intro limit hpos hle
    exact ⟨Store.flatMap_pages hpos hle, fun offset hoffset =>
      Store.list_of_length_le hpos hle hoffset⟩

/-- Of two overlapping transactions the one begun later commits first, and a row is deleted. -/
theorem pages_tile_of_overlap :
    ∃ commands s h, Sessions.run { supply := .ticking ⟨0, 0⟩ } commands = s ∧
      history { supply := .ticking ⟨0, 0⟩ } commands = h ∧ s.supply.Advances ∧
      s.store.rows.map Product.name = ["Lamp", "Bowl", "Cup", "Vase"] ∧
      ((s.store.pages 3).flatMap (·.items)).map Product.name = ["Bowl", "Vase", "Lamp", "Cup"] ∧
      s.store.list (.clamped (some 3) (some 4)) = ⟨[], 4⟩ := by
  obtain ⟨commands, s, h, hs, hh, hclock, hrows, hinserts⟩ :
      ∃ commands s h, Sessions.run { supply := .ticking ⟨0, 0⟩ } commands = s ∧
        history { supply := .ticking ⟨0, 0⟩ } commands = h ∧
        (∀ j < s.supply.drawn, ∀ i < j,
          (s.supply.timeAt j).le (s.supply.timeAt i) = false) ∧
        s.store.rows.map Product.name = ["Lamp", "Bowl", "Cup", "Vase"] ∧
        (h.inserts.map (·.2)).map Product.name = ["Cup", "Lamp", "Vase", "Dish", "Bowl"] :=
    ⟨[.begin, .begin, .insert 0 ⟨"Cup", "Acme", "", default⟩,
        .insert 1 ⟨"Lamp", "Acme", "", default⟩, .insert 0 ⟨"Vase", "Acme", "", default⟩,
        .insert 1 ⟨"Dish", "Acme", "", default⟩, .insert 1 ⟨"Bowl", "Acme", "", default⟩,
        .commit 1, .delete (.timed 0 3), .commit 0],
      _, _, rfl, rfl, by decide, by decide, by decide⟩
  have hadvances : s.supply.Advances := fun i j hij hj => hclock j hj i hij
  obtain ⟨listing, hperm, -, -, hinserted, hpages⟩ := pages_tile hs hh
  obtain ⟨htile, hbehind⟩ := hpages 3 (by decide) (by decide)
  have hlength : s.store.rows.length = 4 := by simpa using congrArg List.length hrows
  have hlisted : listing.map Product.name = ["Bowl", "Vase", "Lamp", "Cup"] := by
    have hsublist := (hinserted hadvances).map Product.name
    have hrows' := (hperm.map Product.name).symm.trans (List.reverse_perm _).symm
    rw [hinserts, List.map_reverse, ← List.mem_sublists] at hsublist
    rw [hrows] at hrows'
    -- one sublist of the names inserted has the names of the rows
    have hone : ∀ names ∈ ["Cup", "Lamp", "Vase", "Dish", "Bowl"].sublists,
        ["Lamp", "Bowl", "Cup", "Vase"].Perm names → names = ["Cup", "Lamp", "Vase", "Bowl"] := by
      decide
    rw [← List.reverse_inj, hone _ hsublist hrows']
    rfl
  have hempty := hbehind 4 (Nat.le_of_eq hlength)
  rw [hlength] at hempty
  exact ⟨commands, s, h, hs, hh, hadvances, hrows, by rw [htile, hlisted], hempty⟩

end Sessions

end ProductCatalog
