import ProductCatalog.Database.Listing
import ProductCatalog.Proofs.Store.Listing

/-!
# Two listings of the same rows

A database lists rows of one instant by their ids, the greatest id first; a
store lists them by their commits, the latest commit first.  Both list later
instants before earlier ones, so that their pages can differ only among rows
of one instant, and they do differ if and only if two such rows have been
committed in another order than that of their ids.

## Main definitions

* `Pagination.asked` — the windows that can be asked for.

## Main results

* `filter_mergeSort` — a sort is stable.
* `Store.filter_newestFirst` — in what order a store lists rows of one instant.
* `Store.newestFirst_precedes_iff` — when a store's listing is a database's.
* `Database.page?_asked` — limits and offsets reach the query as they are.
* `Sessions.listings_agree_iff` — when all pages are the same.
-/

namespace ProductCatalog

/-! ## Ties -/

/-- A sort does not change the order of elements that it takes for equal. -/
theorem filter_mergeSort {α : Type} {le : α → α → Bool}
    (htrans : ∀ a b c, le a b = true → le b c = true → le a c = true)
    (htotal : ∀ a b, (le a b || le b a) = true) {tied : α → Bool}
    (htied : ∀ a b, tied a = true → tied b = true → le a b = true) (l : List α) :
    (l.mergeSort le).filter tied = l.filter tied := by
  have hsorted : (l.filter tied).Pairwise fun a b => le a b = true := by
    refine List.pairwise_filter.2 (List.pairwise_of_forall fun a b => ?_)
    exact htied a b
  have hkept : (l.filter tied).Sublist (l.mergeSort le) :=
    List.sublist_mergeSort htrans htotal hsorted List.filter_sublist
  have hboth : (l.filter tied).Sublist ((l.mergeSort le).filter tied) := by
    have hfiltered := hkept.filter tied
    simpa only [List.filter_filter, Bool.and_self] using hfiltered
  have hlength := ((l.mergeSort_perm le).filter tied).length_eq
  exact (hboth.eq_of_length hlength.symm).symm

/-- A relation between tied elements is one among the elements of each tie. -/
theorem pairwise_ties_iff {α β : Type} [DecidableEq β] (f : α → β) (R : α → α → Prop)
    (l : List α) :
    (l.Pairwise fun a b => f a = f b → R a b) ↔
      ∀ tie, (l.filter fun a => f a = tie).Pairwise R := by
  simp only [List.pairwise_filter, decide_eq_true_eq]
  constructor
  · intro h tie
    exact h.imp fun hab ha hb => hab (ha.trans hb.symm)
  · intro h
    rw [List.pairwise_iff_forall_sublist]
    intro a b hab heq
    exact List.pairwise_iff_forall_sublist.1 (h (f b)) hab heq rfl

/-! ## Windows that can be asked for -/

namespace Pagination

/-- The window for a limit and an offset given as signed numbers of 64 bits. -/
def asked (limit offset : Option Int64) : Pagination :=
  clamped (limit.map Int64.toInt) (offset.map Int64.toInt)

theorem asked_limit_le (limit offset : Option Int64) : (asked limit offset).limit ≤ maxLimit := by
  cases limit with
  | none => exact Nat.le_of_ble_eq_true rfl
  | some n =>
      show (if 0 < n.toInt then min n.toInt.toNat maxLimit else defaultLimit) ≤ maxLimit
      split
      · exact Nat.min_le_right ..
      · exact Nat.le_of_ble_eq_true rfl

theorem asked_offset_lt (limit offset : Option Int64) : (asked limit offset).offset < 2 ^ 63 := by
  cases offset with
  | none => exact Nat.pow_pos Nat.two_pos
  | some n =>
      show (if 0 < n.toInt then n.toInt.toNat else defaultOffset) < 2 ^ 63
      have hlt := n.toInt_lt
      split
      · omega
      · exact Nat.pow_pos Nat.two_pos

end Pagination

namespace Database

/-- A limit and an offset that can be asked for reach the query as they are. -/
theorem parameter_asked (limit offset : Option Int64) :
    parameter (Pagination.asked limit offset).limit = (Pagination.asked limit offset).limit ∧
      parameter (Pagination.asked limit offset).offset = (Pagination.asked limit offset).offset := by
  have hlimit := Pagination.asked_limit_le limit offset
  have hmax : Pagination.maxLimit < 2 ^ 63 := by decide
  exact ⟨parameter_of_lt (Nat.lt_of_le_of_lt hlimit hmax),
    parameter_of_lt (Pagination.asked_offset_lt limit offset)⟩

/-- The query for a window that can be asked for does not fail. -/
theorem page?_asked (rows : List Product) (limit offset : Option Int64) :
    page? rows (.asked limit offset) =
      some ⟨((ordered rows).drop (Pagination.asked limit offset).offset).take
        (Pagination.asked limit offset).limit, rows.length⟩ := by
  obtain ⟨hlimit, hoffset⟩ := parameter_asked limit offset
  have hpos : (decide (((Pagination.asked limit offset).limit : Int) < 0) ||
      decide (((Pagination.asked limit offset).offset : Int) < 0)) = false := by
    simp
  rw [page?, listing, hlimit, hoffset]
  simp only [hpos, Bool.false_eq_true, if_false, Int.toNat_natCast, Option.map_some]

theorem ordered_sorted (rows : List Product) :
    (ordered rows).Pairwise fun p q => precedes p q = true := by
  refine List.pairwise_mergeSort ?_ ?_ _
  · intro p q r hpq hqr
    exact precedes_trans hpq hqr
  · exact precedes_total

/-- Rows of different ids are listed by a database in one order only. -/
theorem eq_ordered {rows listing : List Product} (hids : (rows.map Product.id).Nodup)
    (hperm : listing.Perm rows) (hsorted : listing.Pairwise fun p q => precedes p q = true) :
    listing = ordered rows := by
  refine (hperm.trans (ordered_perm rows).symm).eq_of_pairwise ?_ hsorted (ordered_sorted rows)
  intro p q hp hq hpq hqp
  exact List.inj_on_of_nodup_map hids (hperm.mem_iff.1 hp) ((ordered_perm rows).mem_iff.1 hq)
    (precedes_antisymm hpq hqp)

end Database

namespace Store

open Database

/-- Whether rows of one instant have been committed in the order of their ids. -/
def TiesAscend (s : Store) : Prop :=
  s.rows.Pairwise fun p q => p.createdAt = q.createdAt → p.id.le q.id = true

/-- Rows of one instant are listed in the order of their commits, backwards. -/
theorem filter_newestFirst (s : Store) (instant : Instant) :
    (s.newestFirst.filter fun p => p.createdAt = instant) =
      s.rows.reverse.filter fun p => p.createdAt = instant := by
  refine filter_mergeSort ?_ ?_ ?_ _
  · intro p q r hpq hqr
    exact Instant.le_trans hqr hpq
  · intro p q
    exact Instant.le_total ..
  · intro p q hp hq
    rw [decide_eq_true_iff] at hp hq
    rw [hp, hq]
    exact Instant.le_refl instant

/-- A store's listing is a database's if ties have been committed in the order of ids. -/
theorem newestFirst_precedes_iff (s : Store) :
    (s.newestFirst.Pairwise fun p q => precedes p q = true) ↔ s.TiesAscend := by
  have hties : (s.newestFirst.Pairwise fun p q => precedes p q = true) ↔
      s.newestFirst.Pairwise fun p q => p.createdAt = q.createdAt → q.id.le p.id = true := by
    constructor
    · intro h
      exact h.imp fun hpq => (precedes_iff.1 hpq).2
    · intro h
      exact (s.newestFirst_sorted.and h).imp precedes_iff.2
  rw [hties, pairwise_ties_iff]
  simp only [filter_newestFirst]
  rw [← pairwise_ties_iff, List.pairwise_reverse]
  constructor
  · intro h
    exact h.imp fun hpq heq => hpq heq.symm
  · intro h
    exact h.imp fun hpq heq => hpq heq.symm

/-- A store and a database list the instants of their rows alike. -/
theorem map_createdAt_newestFirst (s : Store) :
    s.newestFirst.map Product.createdAt = (ordered s.rows).map Product.createdAt := by
  have hperm := s.newestFirst_perm.trans (ordered_perm s.rows).symm
  have hstore : (s.newestFirst.map Product.createdAt).Pairwise fun t u => u.le t = true :=
    List.pairwise_map.2 s.newestFirst_sorted
  have hdatabase : ((ordered s.rows).map Product.createdAt).Pairwise fun t u => u.le t = true :=
    List.pairwise_map.2 ((ordered_sorted s.rows).imp fun h => (precedes_iff.1 h).1)
  refine (hperm.map _).eq_of_pairwise ?_ hstore hdatabase
  intro t u _ _ htu hut
  exact Instant.le_antisymm hut htu

/-- Pages of the greatest limit show the whole listing. -/
theorem newestFirst_eq_ordered {s : Store} (hlength : s.rows.length < 2 ^ 63)
    (hpages : ∀ limit offset : Option Int64,
      page? s.rows (.asked limit offset) = some (s.list (.asked limit offset))) :
    s.newestFirst = ordered s.rows := by
  have hpage : ∀ k ∈ List.range (s.rows.length / Pagination.maxLimit + 1),
      (s.newestFirst.drop (k * Pagination.maxLimit)).take Pagination.maxLimit =
        ((ordered s.rows).drop (k * Pagination.maxLimit)).take Pagination.maxLimit := by
    intro k hk
    have hk' : k ≤ s.rows.length / Pagination.maxLimit := Nat.le_of_lt_succ (List.mem_range.1 hk)
    have hoffset : k * Pagination.maxLimit < 2 ^ 63 :=
      Nat.lt_of_le_of_lt (Nat.mul_le_of_le_div _ _ _ hk') hlength
    have hasked : Pagination.asked (some 100) (some (Int64.ofNat (k * Pagination.maxLimit))) =
        ⟨Pagination.maxLimit, k * Pagination.maxLimit⟩ := by
      have hpos : 0 < Pagination.maxLimit := by decide
      have hclamped := Pagination.clamped_natCast hpos (Nat.le_refl _) (k * Pagination.maxLimit)
      rw [← hclamped, Pagination.asked, Option.map_some, Option.map_some,
        Int64.toInt_ofNat_of_lt hoffset]
      rfl
    have heq := hpages (some 100) (some (Int64.ofNat (k * Pagination.maxLimit)))
    rw [page?_asked, hasked] at heq
    exact (congrArg ProductPage.items (Option.some.inj heq)).symm
  have hall := List.flatMap_congr hpage
  have hstore := flatMap_windows_length s.newestFirst Pagination.maxLimit (by decide)
  have hdatabase := flatMap_windows_length (ordered s.rows) Pagination.maxLimit (by decide)
  rw [length_newestFirst] at hstore
  rw [(ordered_perm s.rows).length_eq] at hdatabase
  rw [← hstore, hall, hdatabase]

end Store

/-! ## Pages -/

namespace Sessions

open Database

/--
At every store that comes about, limits and offsets that can be asked for
reach the query of a database as they are, and the query does not fail.  Over
the same rows a page of the database has the total of the store's page and
products created at the same instants.  That all pages have the same products
in the same order holds if and only if rows of one instant have been committed
in the order of their ids.
-/
theorem listings_agree_iff {supply : Supply} {commands : List Command} {s : Sessions}
    (hs : Sessions.run { supply := supply } commands = s) (hids : s.supply.Distinct)
    (hlength : s.store.rows.length < 2 ^ 63) :
    (∀ limit offset : Option Int64,
      parameter (Pagination.asked limit offset).limit = (Pagination.asked limit offset).limit ∧
      parameter (Pagination.asked limit offset).offset = (Pagination.asked limit offset).offset ∧
      ∃ page, page? s.store.rows (.asked limit offset) = some page ∧
        page.total = (s.store.list (.asked limit offset)).total ∧
        page.items.map Product.createdAt =
          (s.store.list (.asked limit offset)).items.map Product.createdAt) ∧
      ((∀ limit offset : Option Int64, page? s.store.rows (.asked limit offset) =
        some (s.store.list (.asked limit offset))) ↔ s.store.TiesAscend) := by
  have hregular : s.Regular := by
    subst hs
    exact (Regular.empty supply).run commands hids
  have hrowids : (s.store.rows.map Product.id).Nodup := by
    have hall := hregular.reserves.ids
    rw [List.map_append] at hall
    exact (List.nodup_append.1 hall).1
  refine ⟨?_, ?_, ?_⟩
  · intro limit offset
    obtain ⟨hlimit, hoffset⟩ := parameter_asked limit offset
    refine ⟨hlimit, hoffset, _, page?_asked s.store.rows limit offset, rfl, ?_⟩
    rw [Store.list, List.map_take, List.map_drop, List.map_take, List.map_drop,
      s.store.map_createdAt_newestFirst]
  · intro hpages
    rw [← s.store.newestFirst_precedes_iff, Store.newestFirst_eq_ordered hlength hpages]
    exact ordered_sorted s.store.rows
  · intro hties limit offset
    have hsorted := s.store.newestFirst_precedes_iff.2 hties
    rw [page?_asked, Store.list, eq_ordered hrowids s.store.newestFirst_perm hsorted]

/-- Two transactions insert at one reading of the clock and commit in the order of their ids. -/
theorem listings_agree_of_ascending_ties :
    ∃ supply commands s, Sessions.run { supply := supply } commands = s ∧ s.supply.Distinct ∧
      s.store.rows.map (fun p => (p.name, p.createdAt)) =
        [("Cup", ⟨0, 0⟩), ("Lamp", ⟨0, 0⟩)] ∧
      ∀ limit offset : Option Int64, page? s.store.rows (.asked limit offset) =
        some (s.store.list (.asked limit offset)) := by
  obtain ⟨supply, commands, s, hs, hdrawn, hrows, hlength, hties⟩ :
      ∃ supply commands s, Sessions.run { supply := supply } commands = s ∧
        (∀ j < s.supply.drawn, ∀ i < j, s.supply.idAt i ≠ s.supply.idAt j) ∧
        s.store.rows.map (fun p => (p.name, p.createdAt)) =
          [("Cup", ⟨0, 0⟩), ("Lamp", ⟨0, 0⟩)] ∧
        s.store.rows.length < 2 ^ 63 ∧
        s.store.rows.Pairwise fun p q => p.createdAt = q.createdAt → p.id.le q.id = true :=
    ⟨⟨.timed 0, fun _ => ⟨0, 0⟩, 0⟩,
      [.begin, .begin, .insert 0 ⟨"Cup", "Acme", "", default⟩,
        .insert 1 ⟨"Lamp", "Acme", "", default⟩, .commit 0, .commit 1],
      _, rfl, by decide, by decide, by decide, by decide⟩
  have hids : s.supply.Distinct := fun i j hij hj => hdrawn j hj i hij
  exact ⟨supply, commands, s, hs, hids, hrows, (listings_agree_iff hs hids hlength).2.2 hties⟩

/-- Two transactions insert at one reading of the clock, and the later id is committed first. -/
theorem listings_differ_of_descending_ties :
    ∃ supply commands s, Sessions.run { supply := supply } commands = s ∧ s.supply.Distinct ∧
      (∀ n, supply.timeAt n = ⟨0, 0⟩) ∧
      (page? s.store.rows (.asked none none)).map (fun page => page.items.map Product.name) =
        some ["Lamp", "Cup"] ∧
      (s.store.list (.asked none none)).items.map Product.name = ["Cup", "Lamp"] := by
  obtain ⟨supply, commands, s, hs, hdrawn, htime, hrows, hdatabase, hstore⟩ :
      ∃ supply commands s, Sessions.run { supply := supply } commands = s ∧
        (∀ j < s.supply.drawn, ∀ i < j, s.supply.idAt i ≠ s.supply.idAt j) ∧
        (∀ n, supply.timeAt n = ⟨0, 0⟩) ∧ s.store.rows.map Product.name = ["Lamp", "Cup"] ∧
        (s.store.rows.Pairwise fun p q => precedes p q = true) ∧
        s.store.rows.reverse.Pairwise fun p q => q.createdAt.le p.createdAt = true :=
    ⟨⟨.timed 0, fun _ => ⟨0, 0⟩, 0⟩,
      [.begin, .begin, .insert 0 ⟨"Cup", "Acme", "", default⟩,
        .insert 1 ⟨"Lamp", "Acme", "", default⟩, .commit 1, .commit 0],
      _, rfl, by decide, fun _ => rfl, by decide, by decide, by decide⟩
  have hids : s.supply.Distinct := fun i j hij hj => hdrawn j hj i hij
  refine ⟨supply, commands, s, hs, hids, htime, ?_, ?_⟩
  · rw [page?_asked, ordered, List.mergeSort_of_pairwise hdatabase, Option.map_some,
      List.map_take, List.map_drop, hrows]
    rfl
  · rw [Store.list, Store.newestFirst, List.mergeSort_of_pairwise hstore, List.map_take,
      List.map_drop, List.map_reverse, hrows]
    rfl

end Sessions

end ProductCatalog
