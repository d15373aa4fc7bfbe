import ProductCatalog.Proofs.Catalog.Interleaving
import ProductCatalog.Proofs.Keyed

/-!
# The event protocol of a product

From its insertion to its end a product is in exactly one hand: a creation
that has inserted it, the store that has its row, or a deletion that has
removed the row.  What has been tried to send for it depends on the stage
that it has reached and on nothing else, so that calls that run beside one
another never mix up the events of a product.

`Workload.holdings` lists the products in hand with their stages, rows and
calls together.  `Accords` says that no product is in two hands and that
what has been tried to send agrees with the stages; every step keeps it,
because a step moves one product from one stage to the next.

## Main results

* `Accords.acquire`, `relabel`, `move`, `settle` — what can happen to one
  product.
* `Call.step_progresses` — every step makes one of these happen, or nothing.
* `Workload.Orderly.step`, `Workload.Leads.orderly` — the order is kept.
* `Workload.events_follow_protocol` — the events of a product.
-/

namespace ProductCatalog

/-- How far a product has come. -/
inductive Stage
  /-- Inserted; nothing has been sent. -/
  | inserted
  /-- Inserted; its creation could not be sent, and the transaction is about to be rolled back. -/
  | refused
  /-- Its creation has been sent, and the commit is due. -/
  | announced
  /-- Its row is committed. -/
  | committed
  /-- Its creation has been sent and there is no row (any more); its deletion is to be sent. -/
  | leaving
  /-- Its deletion has been tried to send as well, with or without success. -/
  | gone (taken : Bool)
deriving DecidableEq

/-- What has been tried to send for one product: kinds of events, and whether they were taken. -/
abbrev Record := List (EventKind × Bool)

namespace Stage

/-- What has been tried to send for a product in a stage. -/
def record : Stage → Record
  | inserted => []
  | refused => [(.created, false)]
  | announced | committed | leaving => [(.created, true)]
  | gone taken => [(.created, true), (.deleted, taken)]

/-- What can have been tried to send for a product that is in nobody's hand. -/
def settled : List Record :=
  [[], [(.created, false)], [(.created, true), (.deleted, true)],
    [(.created, true), (.deleted, false)]]

end Stage

/-- What has been tried to send for a product. -/
def recordOf (attempts : List Attempt) (id : ProductId) : Record :=
  (attempts.filter (·.event.productId = id)).map fun a => (a.event.kind, a.accepted)

theorem recordOf_append (xs ys : List Attempt) (id : ProductId) :
    recordOf (xs ++ ys) id = recordOf xs id ++ recordOf ys id := by
  simp [recordOf]

theorem recordOf_singleton (kind : EventKind) (taken : Bool) (id other : ProductId) :
    recordOf [⟨⟨kind, id⟩, taken⟩] other = if id = other then [(kind, taken)] else [] := by
  by_cases h : id = other <;> simp [recordOf, h]

/-! ## Products in hand -/

/-- A product and its stage. -/
abbrev Holding := ProductId × Stage

/-- The product that a creation has in hand. -/
def CreateCall.holding? : CreateCall → Option Holding
  | inserted product _ => some (product.id, .inserted)
  | published product _ => some (product.id, .announced)
  | failing tx _ => tx.pending.head?.map fun product => (product.id, .refused)
  | retracting product _ => some (product.id, .leaving)
  | start _ | begun .. | finished _ => none

/-- The product that a deletion has in hand. -/
def DeleteCall.holding? : DeleteCall → Option Holding
  | removed id => some (id, .leaving)
  | start _ | finished _ => none

/-- The product that a call has in hand. -/
def Call.holding? : Call → Option Holding
  | create call => call.holding?
  | delete call => call.holding?
  | list _ | listed _ => none

/-- Whether a call that has begun and not ended concerns a product. -/
def Call.Concerns (call : Call) (id : ProductId) : Prop := ∃ stage, call.holding? = some (id, stage)

/-- The products that the store has in hand. -/
def Catalog.holdings (c : Catalog) : List Holding :=
  c.ledger.rows.map fun product => (product.id, .committed)

/-- The products in anybody's hand. -/
def Workload.holdings (w : Workload) : List Holding :=
  w.catalog.holdings ++ w.calls.filterMap Call.holding?

/-- No product is in two hands, and what has been tried to send agrees with the stages. -/
structure Accords (holdings : List Holding) (attempts : List Attempt) : Prop where
  nodup : (holdings.map Prod.fst).Nodup
  held : ∀ h ∈ holdings, recordOf attempts h.1 = h.2.record
  settled : ∀ id, id ∉ holdings.map Prod.fst → recordOf attempts id ∈ Stage.settled

namespace Accords

variable {holdings rest : List Holding} {attempts : List Attempt} {id : ProductId}

theorem perm {holdings' : List Holding} (h : Accords holdings attempts)
    (hp : holdings'.Perm holdings) : Accords holdings' attempts where
  nodup := (hp.map Prod.fst).nodup_iff.2 h.nodup
  held x hx := h.held x (hp.mem_iff.1 hx)
  settled x hx := h.settled x fun hmem => hx ((hp.map Prod.fst).mem_iff.2 hmem)

/-- A product of which nothing has been heard is taken in hand. -/
theorem acquire (h : Accords rest attempts) (hnew : id ∉ rest.map Prod.fst)
    (hrecord : recordOf attempts id = []) : Accords ((id, .inserted) :: rest) attempts where
  nodup := List.nodup_cons.2 ⟨hnew, h.nodup⟩
  held x hx := by
    rcases List.mem_cons.1 hx with rfl | hx
    · exact hrecord
    · exact h.held x hx
  settled x hx := by
    rw [List.map_cons, List.mem_cons, not_or] at hx
    exact h.settled x hx.2

/-- A product changes hands or stage without an attempt. -/
theorem relabel {stage stage' : Stage} (h : Accords ((id, stage) :: rest) attempts)
    (hrecord : stage'.record = stage.record) : Accords ((id, stage') :: rest) attempts where
  nodup := h.nodup
  held x hx := by
    rcases List.mem_cons.1 hx with rfl | hx
    · exact (h.held (id, stage) (by simp)).trans hrecord.symm
    · exact h.held x (by simp [hx])
  settled x hx := h.settled x hx

/-- What has been tried to send for other products is not touched by an attempt. -/
private theorem recordOf_snoc_of_ne {kind : EventKind} {taken : Bool} {other : ProductId}
    (hne : id ≠ other) :
    recordOf (attempts ++ [⟨⟨kind, id⟩, taken⟩]) other = recordOf attempts other := by
  rw [recordOf_append, recordOf_singleton, if_neg hne, List.append_nil]

private theorem recordOf_snoc_self {kind : EventKind} {taken : Bool} :
    recordOf (attempts ++ [⟨⟨kind, id⟩, taken⟩]) id = recordOf attempts id ++ [(kind, taken)] := by
  rw [recordOf_append, recordOf_singleton, if_pos rfl]

/-- An attempt for a product in hand takes it to another stage. -/
theorem move {stage stage' : Stage} {kind : EventKind} {taken : Bool}
    (h : Accords ((id, stage) :: rest) attempts)
    (hrecord : stage'.record = stage.record ++ [(kind, taken)]) :
    Accords ((id, stage') :: rest) (attempts ++ [⟨⟨kind, id⟩, taken⟩]) where
  nodup := h.nodup
  held x hx := by
    rcases List.mem_cons.1 hx with rfl | hrest
    · rw [recordOf_snoc_self, hrecord, h.held (id, stage) (by simp)]
    · have hne : id ≠ x.1 := by
        intro heq
        refine (List.nodup_cons.1 h.nodup).1 ?_
        show id ∈ rest.map Prod.fst
        rw [heq]
        exact List.mem_map_of_mem hrest
      rw [recordOf_snoc_of_ne hne]
      exact h.held x (by simp [hrest])
  settled x hx := by
    have hne : id ≠ x := by
      rintro rfl
      exact hx (by simp)
    rw [recordOf_snoc_of_ne hne]
    exact h.settled x hx

/-- A product is let go of once what has been tried to send for it is settled. -/
theorem settle {stage : Stage} (h : Accords ((id, stage) :: rest) attempts)
    (hrecord : stage.record ∈ Stage.settled) : Accords rest attempts where
  nodup := (List.nodup_cons.1 h.nodup).2
  held x hx := h.held x (by simp [hx])
  settled x hx := by
    by_cases hid : id = x
    · subst hid
      rwa [h.held (id, stage) (by simp)]
    · exact h.settled x (by simp [Ne.symm hid, hx])

end Accords

/-! ## The order of a workload -/

/-- A creation's transaction holds the one product that the creation has inserted. -/
def CreateCall.Sane : CreateCall → Prop
  | begun _ tx => tx.pending = []
  | inserted product tx | published product tx => tx.pending = [product]
  | failing tx _ => tx.pending = [] ∨ ∃ product, tx.pending = [product]
  | start _ | retracting .. | finished _ => True

/-- The transaction of a creation holds the one product that the creation has inserted. -/
def Call.Sane : Call → Prop
  | create call => call.Sane
  | delete _ | list _ | listed _ => True

theorem Request.sane_call (request : Request) : request.call.Sane := by
  cases request <;> trivial

/--
The products in hand agree with what has been tried to send, ids that have
not been drawn are unheard of, and every creation is sane.
-/
structure Workload.Orderly (w : Workload) (attempts : List Attempt) : Prop where
  accords : Accords w.holdings attempts
  unused : ∀ id, w.catalog.supply.Unused id →
    id ∉ w.holdings.map Prod.fst ∧ recordOf attempts id = []
  sane : ∀ call ∈ w.calls, call.Sane

/-! ## What a step does to one product -/

/--
What a step does to the product that it is about, if there is one: before it
is among the holdings `old` and afterwards among `new`.  The step draws an id
only for a product that it takes in hand.
-/
inductive Progress (supply supply' : Supply) :
    List Holding → List Holding → List Attempt → Prop
  | idle (hs : supply' = supply) : Progress supply supply' [] [] []
  | acquire (hs : supply' = supply.next) :
      Progress supply supply' [] [(supply.id, .inserted)] []
  | relabel {id stage stage'} (hs : supply' = supply) (hrecord : stage'.record = stage.record) :
      Progress supply supply' [(id, stage)] [(id, stage')] []
  | move {id stage stage' kind taken} (hs : supply' = supply)
      (hrecord : stage'.record = stage.record ++ [(kind, taken)]) :
      Progress supply supply' [(id, stage)] [(id, stage')] [⟨⟨kind, id⟩, taken⟩]
  | settle {id stage} (hs : supply' = supply) (hrecord : stage.record ∈ Stage.settled) :
      Progress supply supply' [(id, stage)] [] []
  | leave {id taken} (hs : supply' = supply) :
      Progress supply supply' [(id, .leaving)] [] [⟨⟨.deleted, id⟩, taken⟩]

namespace Progress

variable {supply supply' : Supply} {old new rest : List Holding} {attempts more : List Attempt}

/-- A step on one product keeps all products in accord. -/
theorem accords (h : Progress supply supply' old new more) (ha : Accords (old ++ rest) attempts)
    (hd : supply'.Distinct)
    (hunused : ∀ id, supply.Unused id →
      id ∉ (old ++ rest).map Prod.fst ∧ recordOf attempts id = []) :
    Accords (new ++ rest) (attempts ++ more) := by
  cases h with
  | idle => rwa [List.append_nil]
  | acquire hs =>
      subst hs
      obtain ⟨hmem, hrecord⟩ := hunused supply.id hd.unused_id
      rw [List.append_nil]
      exact ha.acquire hmem hrecord
  | relabel _ hrecord =>
      rw [List.append_nil]
      exact ha.relabel hrecord
  | move _ hrecord => exact ha.move hrecord
  | settle _ hrecord =>
      rw [List.append_nil]
      exact ha.settle hrecord
  | @leave id taken =>
      have hgone : Accords ((id, .gone taken) :: rest) (attempts ++ [⟨⟨.deleted, id⟩, taken⟩]) :=
        ha.move rfl
      refine hgone.settle ?_
      cases taken <;> decide

/-- Of an id that is unused afterwards nothing has been heard. -/
theorem unused (h : Progress supply supply' old new more) {id : ProductId}
    (hid : supply'.Unused id)
    (hunused : supply.Unused id →
      id ∉ (old ++ rest).map Prod.fst ∧ recordOf attempts id = []) :
    id ∉ (new ++ rest).map Prod.fst ∧ recordOf (attempts ++ more) id = [] := by
  cases h with
  | idle hs =>
      rw [List.append_nil]
      exact hunused (hs ▸ hid)
  | acquire hs =>
      subst hs
      obtain ⟨hmem, hrecord⟩ := hunused hid.of_next
      rw [List.append_nil]
      exact ⟨by simpa [hid.ne_id] using hmem, hrecord⟩
  | relabel hs =>
      rw [List.append_nil]
      exact hunused (hs ▸ hid)
  | settle hs =>
      obtain ⟨hmem, hrecord⟩ := hunused (hs ▸ hid)
      rw [List.append_nil]
      exact ⟨fun h => hmem (by simp_all), hrecord⟩
  | @move moved _ _ _ _ hs =>
      obtain ⟨hmem, hrecord⟩ := hunused (hs ▸ hid)
      have hne : moved ≠ id := fun heq => hmem (by simp [heq])
      rw [recordOf_append, recordOf_singleton, if_neg hne, List.append_nil]
      exact ⟨hmem, hrecord⟩
  | @leave moved _ hs =>
      obtain ⟨hmem, hrecord⟩ := hunused (hs ▸ hid)
      have hne : moved ≠ id := fun heq => hmem (by simp [heq])
      rw [recordOf_append, recordOf_singleton, if_neg hne, List.append_nil]
      exact ⟨fun h => hmem (by simp_all), hrecord⟩

end Progress

/-- The products in the hands of the store and of one call. -/
def Call.share (c : Catalog) (call : Call) : List Holding := c.holdings ++ call.holding?.toList

/-- A step of a call makes progress with at most one of the products in its share. -/
structure Call.Progresses (c c' : Catalog) (call call' : Call) (attempts : List Attempt) :
    Prop where
  sane : call'.Sane
  progress : ∃ old new rest, (call.share c).Perm (old ++ rest) ∧
    (call'.share c').Perm (new ++ rest) ∧ Progress c.supply c'.supply old new attempts

/-- Steps that leave the rows alone only change what the call has in hand. -/
private theorem progresses_of_rows {c c' : Catalog} {call call' : Call} {attempts : List Attempt}
    (hrows : c'.ledger.rows = c.ledger.rows) (hsane : call'.Sane)
    (h : Progress c.supply c'.supply call.holding?.toList call'.holding?.toList attempts) :
    Call.Progresses c c' call call' attempts where
  sane := hsane
  progress := by
    have hholdings : c'.holdings = c.holdings := by
      rw [Catalog.holdings, Catalog.holdings, hrows]
    refine ⟨_, _, c.holdings, List.perm_append_comm, ?_, h⟩
    rw [Call.share, hholdings]
    exact List.perm_append_comm

/-- Every step of a creation makes progress. -/
theorem CreateCall.Transition.progresses {c c' : Catalog} {call call' : CreateCall}
    {attempts : List Attempt} (h : CreateCall.Transition c call c' call' attempts)
    (hsane : call.Sane) :
    Call.Progresses c c' (.create call) (.create call') attempts := by
  cases h with
  | begun hl hs => exact progresses_of_rows (by rw [hl]) rfl (.idle hs)
  | notBegun _ hl hs => exact progresses_of_rows (by rw [hl]) trivial (.idle hs)
  | @inserted _ tx _ product hp _ hl hs =>
      have hpending : tx.pending = [] := hsane
      have hid : product.id = c.supply.id := by rw [hp]; rfl
      refine progresses_of_rows (by rw [hl]; rfl) (by simp [Call.Sane, Sane, hpending]) ?_
      simp only [Call.holding?, holding?, hid, Option.toList_none, Option.toList_some]
      exact .acquire hs
  | @notInserted _ tx _ _ _ hl hs =>
      have hpending : tx.pending = [] := hsane
      refine progresses_of_rows (by rw [hl]) (.inl hpending) ?_
      simp only [Call.holding?, holding?, hpending, List.head?_nil, Option.map_none,
        Option.toList_none]
      exact .idle hs
  | announced hl hs => exact progresses_of_rows (by rw [hl]; rfl) hsane (.move hs rfl)
  | @notAnnounced product tx _ _ _ hl hs =>
      have hpending : tx.pending = [product] := hsane
      refine progresses_of_rows (by rw [hl]) (.inr ⟨product, hpending⟩) ?_
      simp only [Call.holding?, holding?, hpending, List.head?_cons, Option.map_some,
        Option.toList_some]
      exact .move hs rfl
  | @committed product tx _ hl hs =>
      have hpending : tx.pending = [product] := hsane
      refine ⟨trivial, [(product.id, .announced)], [(product.id, .committed)], c.holdings,
        List.perm_append_comm, ?_, .relabel hs rfl⟩
      have hrows : c'.ledger.rows = c.ledger.rows ++ [product] := by rw [hl, ← hpending]
      simp only [Call.share, Catalog.holdings, hrows, Call.holding?, holding?, Option.toList_none,
        List.append_nil, List.map_append]
      exact List.perm_append_comm
  | notCommitted hl hs =>
      exact progresses_of_rows (by rw [hl]; rfl) trivial (.relabel hs rfl)
  | @undone tx _ _ hl hs =>
      refine progresses_of_rows (by rw [hl]; rfl) trivial ?_
      have hpending : tx.pending = [] ∨ ∃ product, tx.pending = [product] := hsane
      rcases hpending with hpending | ⟨product, hpending⟩
      · simp only [Call.holding?, holding?, hpending, List.head?_nil, Option.map_none,
          Option.toList_none]
        exact .idle hs
      · simp only [Call.holding?, holding?, hpending, List.head?_cons, Option.map_some,
          Option.toList_some, Option.toList_none]
        exact .settle hs (by decide)
  | retracted accepted hl hs => exact progresses_of_rows (by rw [hl]; rfl) trivial (.leave hs)
  | rested => exact progresses_of_rows rfl trivial (.idle rfl)

/-- The row with an id is one, and its removal leaves all others. -/
theorem Catalog.holdings_perm_of_row {c c' : Catalog} {id : ProductId}
    (hnodup : (c.holdings.map Prod.fst).Nodup) (hrow : ∃ p ∈ c.ledger.rows, p.id = id)
    (hrows : c'.ledger.rows = c.ledger.rows.filter fun p => p.id != id) :
    c.holdings.Perm ((id, .committed) :: c'.holdings) := by
  obtain ⟨p, hp, rfl⟩ := hrow
  have hids : (c.ledger.rows.map Product.id).Nodup := by
    simpa [Catalog.holdings, Function.comp_def] using hnodup
  rw [Catalog.holdings, Catalog.holdings, hrows]
  exact (perm_cons_filter_key hids hp).map _

/-- Every step of a deletion makes progress. -/
theorem DeleteCall.Transition.progresses {c c' : Catalog} {call call' : DeleteCall}
    {attempts : List Attempt} (h : DeleteCall.Transition c call c' call' attempts)
    (hnodup : (c.holdings.map Prod.fst).Nodup) :
    Call.Progresses c c' (.delete call) (.delete call') attempts := by
  cases h with
  | @removed id _ hrow hl hs =>
      refine ⟨trivial, [(id, .committed)], [(id, .leaving)], c'.holdings, ?_,
        List.perm_append_comm, .relabel hs rfl⟩
      simp only [Call.share, Call.holding?, holding?, Option.toList_none, List.append_nil]
      exact Catalog.holdings_perm_of_row hnodup hrow (by rw [hl])
  | notRemoved hl hs => exact progresses_of_rows (by rw [hl]) trivial (.idle hs)
  | announced accepted hl hs => exact progresses_of_rows (by rw [hl]; rfl) trivial (.leave hs)
  | rested => exact progresses_of_rows rfl trivial (.idle rfl)

/-- Every step of any call makes progress. -/
theorem Call.step_progresses (c : Catalog) (call : Call) (hsane : call.Sane)
    (hnodup : (c.holdings.map Prod.fst).Nodup) :
    Call.Progresses c (call.step c).1 call (call.step c).2 (call.attempts c) := by
  cases call with
  | create call => exact (call.step_transition c).progresses hsane
  | delete call => exact (call.step_transition c).progresses hnodup
  | list window =>
      obtain ⟨hl, hs⟩ := c.list_ledger window
      exact progresses_of_rows (congrArg Ledger.rows hl) trivial (.idle hs)
  | listed result => exact progresses_of_rows rfl trivial (.idle rfl)

/-! ## Every step of a workload -/

namespace Workload

/-- The products in hand, with those in the share of one call in front. -/
private theorem holdings_perm {c : Catalog} {calls others : List Call} {call : Call}
    (h : calls.Perm (call :: others)) :
    (Workload.mk c calls).holdings.Perm (call.share c ++ others.filterMap Call.holding?) := by
  have hcalls : (calls.filterMap Call.holding?).Perm
      (call.holding?.toList ++ others.filterMap Call.holding?) := by
    refine (h.filterMap Call.holding?).trans (.of_eq ?_)
    rw [List.filterMap_cons]
    cases call.holding? <;> rfl
  rw [holdings, Call.share, List.append_assoc]
  exact hcalls.append_left _

namespace Orderly

variable {w : Workload} {attempts : List Attempt}

theorem empty (supply : Supply) : Orderly ⟨Catalog.empty supply, []⟩ [] where
  accords :=
    { nodup := List.nodup_nil
      held := fun _ h => absurd h List.not_mem_nil
      settled := fun _ _ => List.mem_cons_self }
  unused := fun _ _ => ⟨List.not_mem_nil, rfl⟩
  sane := fun _ h => absurd h List.not_mem_nil

/-- A call that has not begun has nothing in hand. -/
theorem arrive (h : Orderly w attempts) (request : Request) :
    Orderly { w with calls := w.calls ++ [request.call] } attempts := by
  have hnone : request.call.holding? = none := by cases request <;> rfl
  have hholdings :
      holdings { w with calls := w.calls ++ [request.call] } = w.holdings := by
    simp [holdings, List.filterMap_append, hnone]
  refine ⟨by rw [hholdings]; exact h.accords, by rw [hholdings]; exact h.unused, ?_⟩
  intro call hcall
  rcases List.mem_append.1 hcall with hcall | hcall
  · exact h.sane call hcall
  · obtain rfl := List.mem_singleton.1 hcall
    exact request.sane_call

/-- Faults that are yet to come disturb no order. -/
theorem inject (h : Orderly w attempts) (i : Catalog.Injection) :
    Orderly { w with catalog := w.catalog.inject i } attempts :=
  ⟨h.accords, h.unused, h.sane⟩

/-- Every step of a call keeps the order, unless it draws an id for the second time. -/
theorem step (h : Orderly w attempts) (i : Nat) (hd : (w.step i).catalog.supply.Distinct) :
    Orderly (w.step i) (attempts ++ w.attempts i) := by
  cases hcall : w.calls[i]? with
  | none =>
      rw [(step_of_none hcall).1, (step_of_none hcall).2, List.append_nil]
      exact h
  | some call =>
      rw [(step_of_some hcall).1] at hd ⊢
      rw [(step_of_some hcall).2]
      have hstore : (w.catalog.holdings.map Prod.fst).Nodup := by
        have hnodup := h.accords.nodup
        rw [holdings, List.map_append] at hnodup
        exact (List.nodup_append.1 hnodup).1
      obtain ⟨hsane, old, new, rest, hold, hnew, hprogress⟩ :=
        call.step_progresses w.catalog (h.sane call (List.mem_of_getElem? hcall)) hstore
      -- the products in the hands of the other calls stay where they are
      have hbefore : (old ++ (rest ++ (w.calls.eraseIdx i).filterMap Call.holding?)).Perm
          w.holdings := by
        rw [← List.append_assoc]
        exact ((holdings_perm (calls_perm hcall)).trans (hold.append_right _)).symm
      have hafter :
          (holdings ⟨(call.step w.catalog).1, w.calls.set i (call.step w.catalog).2⟩).Perm
            (new ++ (rest ++ (w.calls.eraseIdx i).filterMap Call.holding?)) := by
        rw [← List.append_assoc]
        exact (holdings_perm (calls_set_perm hcall _)).trans (hnew.append_right _)
      have hunused : ∀ id, w.catalog.supply.Unused id →
          id ∉ (old ++ (rest ++ (w.calls.eraseIdx i).filterMap Call.holding?)).map Prod.fst ∧
            recordOf attempts id = [] := by
        intro id hid
        rw [(hbefore.map Prod.fst).mem_iff]
        exact h.unused id hid
      refine ⟨?_, ?_, ?_⟩
      · exact (hprogress.accords (h.accords.perm hbefore) hd hunused).perm hafter
      · intro id hid
        rw [(hafter.map Prod.fst).mem_iff]
        exact hprogress.unused hid (hunused id)
      · intro other hother
        rcases List.mem_or_eq_of_mem_set hother with hother | rfl
        · exact h.sane other hother
        · exact hsane

end Orderly

/-- Whatever calls do, one beside another and with any faults, they keep the order. -/
theorem Leads.orderly {supply : Supply} {w : Workload} {attempts : List Attempt}
    (h : Leads ⟨Catalog.empty supply, []⟩ w attempts) (hd : w.catalog.supply.Distinct) :
    Orderly w attempts := by
  induction h with
  | refl => exact .empty supply
  | arrive _ request ih => exact (ih hd).arrive request
  | inject _ i ih => exact (ih hd).inject i
  | step _ i ih => exact (ih (distinct_of_step hd)).step i hd

end Workload

/-! ## The events of a product -/

/-- The kinds of the events sent for a product, in order. -/
def Catalog.kindsOf (c : Catalog) (id : ProductId) : List EventKind :=
  (c.events.filter (·.productId = id)).map (·.kind)

/-- The kinds of the attempts in a record that were taken. -/
def Record.taken (record : Record) : List EventKind := (record.filter (·.2)).map Prod.fst

/-- What has been sent for a product is what its record says was taken. -/
private theorem taken_recordOf (attempts : List Attempt) (id : ProductId) :
    (recordOf attempts id).taken =
      ((accepted attempts).filter (·.productId = id)).map (·.kind) := by
  induction attempts with
  | nil => rfl
  | cons attempt rest ih =>
      rw [Record.taken, recordOf, accepted] at ih ⊢
      by_cases hid : attempt.event.productId = id <;> cases htaken : attempt.accepted <;>
        simp_all

/-- The attempts to send one event, read off the record of its product. -/
private theorem filter_event (attempts : List Attempt) (kind : EventKind) (id : ProductId) :
    attempts.filter (·.event = ⟨kind, id⟩) =
      ((recordOf attempts id).filter (·.1 = kind)).map fun r => ⟨⟨kind, id⟩, r.2⟩ := by
  induction attempts with
  | nil => rfl
  | cons attempt rest ih =>
      obtain ⟨⟨k, i⟩, taken⟩ := attempt
      rw [recordOf] at ih ⊢
      by_cases hid : i = id <;> by_cases hkind : k = kind <;> simp_all

namespace Stage

/-- In every stage the events sent are a beginning of a creation followed by a deletion. -/
theorem taken_prefix (stage : Stage) : stage.record.taken <+: [.created, .deleted] := by
  cases stage with
  | gone taken => cases taken <;> decide
  | _ => decide

/-- So they are for a product in nobody's hand. -/
theorem taken_prefix_of_settled {record : Record} (h : record ∈ settled) :
    record.taken <+: [.created, .deleted] := by
  revert record
  decide

/-- If a creation was sent for a product in nobody's hand, a deletion was tried to send once. -/
theorem settled_cases {record : Record} (h : record ∈ settled)
    (hcreated : .created ∈ record.taken) :
    record.taken = [.created, .deleted] ∨ record.filter (·.1 = .deleted) = [(.deleted, false)] := by
  revert record
  decide

end Stage

/-- The store's products are those whose rows it has. -/
private theorem mem_holdings_of_contains {c : Catalog} {id : ProductId}
    (h : c.store.contains id) : (id, .committed) ∈ c.holdings := by
  rw [Store.contains, Store.get?, List.find?_isSome] at h
  obtain ⟨p, hp, hid⟩ := h
  exact List.mem_map.2 ⟨p, hp, by rw [of_decide_eq_true hid]⟩

namespace Workload.Orderly

variable {w : Workload} {attempts : List Attempt}

/-- A product is in hand only if it has a row or a call concerns it. -/
theorem not_mem_holdings {id : ProductId} (hrow : ¬ w.catalog.store.contains id)
    (hcalls : ∀ call ∈ w.calls, ¬ call.Concerns id) : id ∉ w.holdings.map Prod.fst := by
  intro hmem
  obtain ⟨⟨id, stage⟩, hheld, rfl⟩ := List.mem_map.1 hmem
  rcases List.mem_append.1 hheld with hstore | hcall
  · refine hrow ?_
    obtain ⟨p, hp, heq⟩ := List.mem_map.1 hstore
    rw [Store.contains, Store.get?, List.find?_isSome]
    exact ⟨p, hp, decide_eq_true (congrArg Prod.fst heq)⟩
  · obtain ⟨call, hcall, heq⟩ := List.mem_filterMap.1 hcall
    exact hcalls call hcall ⟨stage, heq⟩

/-- The events tried to send for a product with a row. -/
theorem record_of_row (h : Orderly w attempts) {id : ProductId}
    (hrow : w.catalog.store.contains id) : recordOf attempts id = [(.created, true)] :=
  h.accords.held (id, .committed) (List.mem_append_left _ (mem_holdings_of_contains hrow))

/-- The events sent for any product are a beginning of a creation followed by a deletion. -/
theorem taken_prefix (h : Orderly w attempts) (id : ProductId) :
    (recordOf attempts id).taken <+: [.created, .deleted] := by
  by_cases hmem : id ∈ w.holdings.map Prod.fst
  · obtain ⟨⟨id, stage⟩, hheld, rfl⟩ := List.mem_map.1 hmem
    rw [h.accords.held _ hheld]
    exact stage.taken_prefix
  · exact Stage.taken_prefix_of_settled (h.accords.settled id hmem)

end Workload.Orderly

/--
However calls are interleaved and whichever of their steps fail, as long as
no id is drawn twice the events sent for a product are a creation followed
by a deletion, or a beginning of that.  A product with a row has had its
creation sent and nothing else.  A product without a row that no call
concerns has had its deletion sent after its creation, unless the one
attempt to send the deletion failed.

The attempts are the sends in the trace, one for each, and the events are
those of the attempts that the queue has taken.
-/
theorem Workload.events_follow_protocol {supply : Supply} {w : Workload} {attempts : List Attempt}
    (h : Leads ⟨Catalog.empty supply, []⟩ w attempts) (hids : w.catalog.supply.Distinct)
    (id : ProductId) :
    w.catalog.kindsOf id <+: [.created, .deleted] ∧
      (w.catalog.store.contains id → w.catalog.kindsOf id = [.created]) ∧
      (.created ∈ w.catalog.kindsOf id → ¬ w.catalog.store.contains id →
        (∀ call ∈ w.calls, ¬ call.Concerns id) →
        w.catalog.kindsOf id = [.created, .deleted] ∨
          attempts.filter (·.event = ⟨.deleted, id⟩) = [⟨⟨.deleted, id⟩, false⟩]) ∧
      w.catalog.trace.count .send = attempts.length ∧
      w.catalog.events = (attempts.filter (·.accepted)).map (·.event) := by
  have hevents : w.catalog.events = accepted attempts := h.events_eq
  have hsends : w.catalog.trace.count .send = 0 + attempts.length := h.sends_eq
  have hkinds : w.catalog.kindsOf id = (recordOf attempts id).taken := by
    rw [Catalog.kindsOf, hevents, taken_recordOf]
  have horderly := h.orderly hids
  rw [hkinds]
  refine ⟨horderly.taken_prefix id, ?_, ?_, hsends.trans (Nat.zero_add _), hevents⟩
  · intro hrow
    rw [horderly.record_of_row hrow]
    rfl
  · intro hcreated hrow hcalls
    have hsettled := horderly.accords.settled id (Orderly.not_mem_holdings hrow hcalls)
    rcases Stage.settled_cases hsettled hcreated with hboth | hdeleted
    · exact .inl hboth
    · refine .inr ?_
      rw [filter_event, hdeleted]
      rfl

/-- A product is created and deleted, and its deletion cannot be sent: two sends and one event. -/
theorem Workload.events_follow_protocol_of_unsent_deletion :
    ∃ w attempts, Leads ⟨Catalog.empty (.ticking ⟨0, 0⟩), []⟩ w attempts ∧
      w.catalog.supply.Distinct ∧ w.catalog.kindsOf (.timed 0 0) = [.created] ∧
      ¬ w.catalog.store.contains (.timed 0 0) ∧
      (∀ call ∈ w.calls, ¬ call.Concerns (.timed 0 0)) ∧
      attempts.filter (·.event = ⟨.deleted, .timed 0 0⟩) = [⟨⟨.deleted, .timed 0 0⟩, false⟩] ∧
      w.catalog.trace.count .send = 2 ∧ w.catalog.events = [⟨.created, .timed 0 0⟩] := by
  have hstart : Leads ⟨Catalog.empty (.ticking ⟨0, 0⟩), []⟩ _ [] := .refl
  have hbegun := (hstart.arrive (.create ⟨"Cup", "Acme", "", default⟩)).step 0
  have hcreated := ((hbegun.step 0).step 0).step 0
  have hremoved := (hcreated.arrive (.delete (.timed 0 0))).step 1
  have hended := (hremoved.inject { queue := { sends := 1 } }).step 1
  obtain ⟨w, attempts, h, hdrawn, hattempts, hrow, hcalls⟩ :
      ∃ w attempts, Leads ⟨Catalog.empty (.ticking ⟨0, 0⟩), []⟩ w attempts ∧
        w.catalog.supply.drawn = 1 ∧
        attempts = [⟨⟨.created, .timed 0 0⟩, true⟩, ⟨⟨.deleted, .timed 0 0⟩, false⟩] ∧
        w.catalog.store.contains (.timed 0 0) = false ∧
        w.calls.map Call.holding? = [none, none] :=
    ⟨_, _, hended, rfl, rfl, rfl, rfl⟩
  have hdistinct : w.catalog.supply.Distinct := by
    intro i j hij hj
    omega
  obtain ⟨-, -, hlast, hsends, hevents⟩ := events_follow_protocol h hdistinct (.timed 0 0)
  have hone : w.catalog.events = [⟨.created, .timed 0 0⟩] := by
    rw [hevents, hattempts]
    rfl
  have hkinds : w.catalog.kindsOf (.timed 0 0) = [.created] := by
    rw [Catalog.kindsOf, hone]
    decide
  have hgone : ¬ w.catalog.store.contains (.timed 0 0) := by
    rw [hrow]
    decide
  have hover : ∀ call ∈ w.calls, ¬ call.Concerns (.timed 0 0) := by
    rintro call hcall ⟨stage, hstage⟩
    have hmem : some (.timed 0 0, stage) ∈ w.calls.map Call.holding? :=
      hstage ▸ List.mem_map_of_mem hcall
    simp [hcalls] at hmem
  refine ⟨w, attempts, h, hdistinct, hkinds, hgone, hover, ?_, ?_, hone⟩
  · rcases hlast (by rw [hkinds]; decide) hgone hover with hboth | hfailed
    · exact absurd (hkinds.symm.trans hboth) (by decide)
    · exact hfailed
  · rw [hsends, hattempts]
    rfl

end ProductCatalog
