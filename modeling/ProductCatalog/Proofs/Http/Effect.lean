import ProductCatalog.Http.Products
import ProductCatalog.Proofs.Catalog.Disturbed
import ProductCatalog.Proofs.Product.Json

/-!
# The status of an answer tells its effect

What a request does to the catalog can be read off the status of the answer,
whatever the request is and whichever steps fail: 201 means that the product
in the answer has been added, 204 that the product named by the path has been
removed, and everything else that nothing has happened, but for the events of
a creation whose commit has failed.

Most requests are *quiet*: what they demand can neither add nor remove a
product.  The others are creations and deletions, and their answers are the
results of the catalog's operations.

## Main results

* `demand_cases` — a request is quiet, a creation, or a deletion.
* `Demand.Quiet.answer` — quiet requests leave nothing behind.
* `status_tells_effect` — the effect of a request, by its status.
-/

namespace ProductCatalog.Http.Products

open Catalog

/-- A catalog whose operations run under a plan. -/
def disturbed (plan : Plan) (c : Catalog) : Service :=
  ⟨c, c.createUnder plan, c.deleteUnder plan, c.listUnder plan⟩

/-- Answers a request while faults are set as a plan says. -/
def respondUnder (plan : Plan) (limit : Nat) (c : Catalog) (r : Request) : Catalog × Response :=
  (demand limit r).answer (disturbed plan c)

theorem respondUnder_none (limit : Nat) (c : Catalog) (r : Request) :
    respondUnder (fun _ => none) limit c r = respond limit c r := by
  have hservice : disturbed (fun _ => none) c = undisturbed c := by
    have hcreate := funext (createUnder_none c)
    have hdelete := funext (deleteUnder_none c)
    have hlist := funext (listUnder_none c)
    rw [disturbed, undisturbed, hcreate, hdelete, hlist]
  rw [respondUnder, hservice, respond]

/-! ## What a request demands -/

/-- The id of the product that a path names. -/
def productId? (path : List Char) : Option ProductId :=
  match Route.ofPath? path with
  | some (.product name) => (Text.percentText name).toOption.bind ProductId.parse?
  | _ => none

/-- Whether a demand can neither add nor remove a product, and its answer does not say so. -/
def Demand.Quiet : Demand → Prop
  | settled response => response.status ≠ 201 ∧ response.status ≠ 204
  | refused _ | list _ => True
  | create _ | delete _ => False
  | brief demand => demand.Quiet

private theorem quiet_settled {response : Response} (status : Nat)
    (h : response.status = status) (hne : status ≠ 201 ∧ status ≠ 204) :
    (Demand.settled response).Quiet := by
  subst h
  exact hne

private theorem quiet_listing (r : Request) : (listing r).Quiet := by
  unfold listing
  split
  · exact quiet_settled 400 rfl (by decide)
  · trivial

private theorem creation_cases (limit : Nat) (r : Request) :
    (creation limit r).Quiet ∨ ∃ input, creation limit r = .create input := by
  unfold creation
  split
  · exact .inl trivial
  · exact .inr ⟨_, rfl⟩

/-- A demand to delete a product is one for the product that is named, or the request is refused. -/
private theorem deletion_cases (name : List Char) :
    (deletion name).Quiet ∨ ∃ id, deletion name = .delete id ∧
      (Text.percentText name).toOption.bind ProductId.parse? = some id := by
  unfold deletion
  cases Text.percentText name with
  | error e => exact .inl (quiet_settled 400 rfl (by decide))
  | ok text =>
      simp only [Except.toOption, Option.bind_some]
      cases ProductId.parse? text with
      | none => exact .inl trivial
      | some id => exact .inr ⟨id, rfl, rfl⟩

private theorem quiet_notAllowed (allow : String) : (Demand.settled (.notAllowed allow)).Quiet :=
  quiet_settled 405 rfl (by decide)

private theorem dispatch_cases (limit : Nat) (r : Request) (route : Route) (method : String) :
    (dispatch limit r route method).Quiet ∨
      (∃ input, dispatch limit r route method = .create input ∧ method = "POST" ∧
        route = .products) ∨
      ∃ id name, dispatch limit r route method = .delete id ∧ route = .product name ∧
        (Text.percentText name).toOption.bind ProductId.parse? = some id := by
  unfold dispatch
  cases route with
  | health =>
      by_cases hget : method = "GET"
      · simp only [if_pos hget]
        exact .inl (quiet_settled 200 rfl (by decide))
      · simp only [if_neg hget]
        exact .inl (quiet_notAllowed _)
  | products =>
      by_cases hget : method = "GET"
      · simp only [if_pos hget, Option.getD_some]
        exact .inl (quiet_listing r)
      · by_cases hpost : method = "POST"
        · simp only [if_neg hget, if_pos hpost]
          rcases creation_cases limit r with hquiet | ⟨input, hinput⟩
          · exact .inl hquiet
          · exact .inr (.inl ⟨input, hinput, hpost, trivial⟩)
        · simp only [if_neg hget, if_neg hpost]
          exact .inl (quiet_notAllowed _)
  | product name =>
      by_cases hdelete : method = "DELETE"
      · simp only [if_pos hdelete]
        rcases deletion_cases name with hquiet | ⟨id, hid, hname⟩
        · exact .inl hquiet
        · exact .inr (.inr ⟨id, name, hid, rfl, hname⟩)
      · simp only [if_neg hdelete]
        exact .inl (quiet_notAllowed _)

/-- `GET` is quiet on every path. -/
private theorem quiet_get (limit : Nat) (r : Request) (route : Route) :
    (dispatch limit r route "GET").Quiet := by
  cases route with
  | health => exact quiet_settled 200 rfl (by decide)
  | products =>
      simp only [dispatch, if_true, Option.getD_some]
      exact quiet_listing r
  | product name => exact quiet_notAllowed _

/-- A request is quiet, or a creation, or the deletion of the product that its path names. -/
theorem demand_cases (limit : Nat) (r : Request) :
    (demand limit r).Quiet ∨
      (∃ input, demand limit r = .create input ∧ r.method = "POST" ∧
        Route.ofPath? r.path = some .products) ∨
      ∃ id, demand limit r = .delete id ∧ productId? r.path = some id := by
  unfold demand productId?
  by_cases hlong : limit < r.declaredLength?.getD 0
  · rw [if_pos hlong]
    exact .inl (quiet_settled 413 rfl (by decide))
  · rw [if_neg hlong]
    cases hroute : Route.ofPath? r.path with
    | none => exact .inl (quiet_settled 404 rfl (by decide))
    | some route =>
        by_cases hhead : r.method = "HEAD"
        · dsimp only
          rw [if_pos hhead]
          exact .inl (quiet_get limit r route)
        · dsimp only
          rw [if_neg hhead]
          rcases dispatch_cases limit r route r.method with
            hquiet | ⟨input, hinput, hpost, rfl⟩ | ⟨id, name, hid, rfl, hname⟩
          · exact .inl hquiet
          · exact .inr (.inl ⟨input, hinput, hpost, rfl⟩)
          · exact .inr (.inr ⟨id, hid, hname⟩)

/-! ## Answers -/

/-- No failure has the status of a success. -/
theorem status_failure_ne (e : CatalogError) :
    (failure e).status ≠ 201 ∧ (failure e).status ≠ 204 := by
  cases e <;> simp [failure, Response.error, Response.json, status]

/-- A failure that is answered leaves nothing behind but an entry in the log. -/
theorem fail_eq (c : Catalog) (e : CatalogError) :
    (fail c e).1.ledger = c.ledger ∧ (fail c e).2 = failure e := by
  cases e <;> exact ⟨rfl, rfl⟩

/-- Quiet requests leave nothing behind, and their answers do not claim that they do. -/
theorem Demand.Quiet.answer {d : Demand} (h : d.Quiet) (plan : Plan) (c : Catalog) :
    (d.answer (disturbed plan c)).1.ledger = c.ledger ∧
      (d.answer (disturbed plan c)).2.status ≠ 201 ∧
      (d.answer (disturbed plan c)).2.status ≠ 204 := by
  induction d with
  | settled response => exact ⟨rfl, h⟩
  | refused e =>
      obtain ⟨hledger, hanswer⟩ := fail_eq c e
      refine ⟨hledger, ?_⟩
      show (fail c e).2.status ≠ 201 ∧ (fail c e).2.status ≠ 204
      rw [hanswer]
      exact status_failure_ne e
  | create input => exact h.elim
  | delete id => exact h.elim
  | list w =>
      have hledger := c.listUnder_ledger plan w
      simp only [Demand.answer, disturbed]
      rcases hlist : c.listUnder plan w with ⟨after, e | page⟩
      · rw [hlist] at hledger
        obtain ⟨hfail, hanswer⟩ := fail_eq after e
        refine ⟨hfail.trans hledger, ?_⟩
        show (fail after e).2.status ≠ 201 ∧ (fail after e).2.status ≠ 204
        rw [hanswer]
        exact status_failure_ne e
      · rw [hlist] at hledger
        refine ⟨hledger, ?_⟩
        show (200 : Nat) ≠ 201 ∧ (200 : Nat) ≠ 204
        decide
  | brief d ih => exact ih h

/-! ## Creations and deletions -/

/--
The effect of a creation: the product has been added and is in the answer, or
nothing has been added, and the events of a creation whose commit has failed
may have been sent.
-/
theorem create_effect (plan : Plan) (c : Catalog) (input : NewProduct) :
    let answer := (Demand.create input).answer (disturbed plan c)
    let product := Creation.product c input
    (answer.2 = .json 201 product.json ∧
        answer.1.ledger = { c.ledger with
          rows := c.ledger.rows ++ [product]
          events := c.ledger.events ++ [⟨.created, product.id⟩]
          created := c.ledger.created + 1 }) ∨
      (∃ e, answer.2 = failure e ∧ answer.1.ledger = c.ledger) ∨
      answer.2 = failure commitFailure ∧
        ∃ sent, (sent = [⟨.created, product.id⟩] ∨
            sent = [⟨.created, product.id⟩, ⟨.deleted, product.id⟩]) ∧
          answer.1.ledger = c.ledger.send sent := by
  intro answer product
  obtain ⟨result, hresult, hended⟩ := createUnder_cases plan c input
  have hanswer : answer = reply (fun product => .json 201 product.json)
      (((Creation.start c input).under plan 5).catalog, result) := by
    rw [← hresult]
    rfl
  cases hended with
  | completed _ hledger =>
      exact .inl (by rw [hanswer]; exact ⟨rfl, hledger⟩)
  | @refused e _ hnone hundone =>
      obtain ⟨hledger, hfailure⟩ := fail_eq ((Creation.start c input).under plan 5).catalog e
      refine .inr (.inl ⟨e, ?_, ?_⟩)
      · rw [hanswer]
        exact hfailure
      · rw [hanswer]
        refine hledger.trans ?_
        rw [hundone.ledger, hnone, Ledger.send_nil]
  | retracted taken hattempts hundone =>
      obtain ⟨hledger, hfailure⟩ :=
        fail_eq ((Creation.start c input).under plan 5).catalog commitFailure
      refine .inr (.inr ⟨?_, accepted ((Creation.start c input).under plan 5).attempts, ?_, ?_⟩)
      · rw [hanswer]
        exact hfailure
      · rw [hattempts]
        cases taken with
        | false => exact .inl rfl
        | true => exact .inr rfl
      · rw [hanswer]
        exact hledger.trans hundone.ledger

/-- The effect of a deletion: the row has been removed, or nothing has happened. -/
theorem delete_effect (plan : Plan) (c : Catalog) (id : ProductId) :
    let answer := (Demand.delete id).answer (disturbed plan c)
    (answer.2 = .empty 204 ∧ (∃ p ∈ c.ledger.rows, p.id = id) ∧
        ∃ sent, (sent = [] ∨ sent = [⟨.deleted, id⟩]) ∧
          answer.1.ledger = { c.ledger.send sent with
            rows := c.ledger.rows.filter fun p => p.id != id
            deleted := c.ledger.deleted + 1 }) ∨
      ∃ e, answer.2 = failure e ∧ answer.1.ledger = c.ledger := by
  intro answer
  have hanswer : answer = reply (fun () => .empty 204) (c.deleteUnder plan id) := rfl
  rcases c.deleteUnder_cases plan id with ⟨after, sent, h, hrow, hsent, hledger⟩ | ⟨after, e, h, hl⟩
  · rw [hanswer, h]
    exact .inl ⟨rfl, hrow, sent, hsent, hledger⟩
  · obtain ⟨hledger, hfailure⟩ := fail_eq after e
    rw [hanswer, h]
    exact .inr ⟨e, hfailure, hledger.trans hl⟩

/-- What the status of the answer to a request tells of its effect. -/
structure StatusTells (r : Request) (response : Response) (before after : Ledger) : Prop where
  /-- The product in the answer has been added, and its creation sent. The answer is a JSON object
  whose fields spell this product's members, and the JSON of no product with others. -/
  added : response.status = 201 → ∃ p, response.body = p.json ∧
    (∃ bytes, Text.encode response.body = 0x7B :: (bytes ++ [0x7D]) ∧
      Json.SpellsFields true p.fields bytes) ∧
    (∀ q : Product, q.json = response.body →
      q.id = p.id ∧ q.name = p.name ∧ q.vendor = p.vendor ∧ q.description = p.description) ∧
    after = { before with
      rows := before.rows ++ [p]
      events := before.events ++ [⟨.created, p.id⟩]
      created := before.created + 1 }
  /-- The product named by the path has been removed, and its deletion, at most, sent. -/
  removed : response.status = 204 → ∃ p ∈ before.rows, productId? r.path = some p.id ∧
    ∃ sent, (sent = [] ∨ sent = [⟨.deleted, p.id⟩]) ∧
      after = { before with
        rows := before.rows.erase p
        events := before.events ++ sent
        deleted := before.deleted + 1 }
  /-- Nothing has happened, unless the commit of a creation has failed after its event was sent. -/
  nothing : response.status ≠ 201 → response.status ≠ 204 → after = before ∨
    (response = failure commitFailure ∧ response.status = 500 ∧ r.method = "POST" ∧
      Route.ofPath? r.path = some .products ∧
      ∃ id, (∀ p ∈ after.rows, p.id ≠ id) ∧
        ∃ sent, (sent = [⟨.created, id⟩] ∨ sent = [⟨.created, id⟩, ⟨.deleted, id⟩]) ∧
          after = before.send sent)

namespace StatusTells

variable {r : Request} {before after : Ledger}

/-- A request that has done nothing may be answered with any other status. -/
theorem of_idle {response : Response}
    (hne : response.status ≠ 201 ∧ response.status ≠ 204) (hledger : after = before) :
    StatusTells r response before after where
  added hs := absurd hs hne.1
  removed hs := absurd hs hne.2
  nothing _ _ := .inl hledger

theorem of_added {p : Product}
    (hledger : after = { before with
      rows := before.rows ++ [p]
      events := before.events ++ [⟨.created, p.id⟩]
      created := before.created + 1 }) :
    StatusTells r (.json 201 p.json) before after where
  added _ := ⟨p, rfl, p.spells_json, fun _ hq => Product.json_inj hq, hledger⟩
  removed hs := absurd hs (show (201 : Nat) ≠ 204 by decide)
  nothing hs _ := absurd rfl hs

theorem of_removed {p : Product} {sent : List LifecycleEvent} (hrow : p ∈ before.rows)
    (hpath : productId? r.path = some p.id) (hsent : sent = [] ∨ sent = [⟨.deleted, p.id⟩])
    (hledger : after = { before with
      rows := before.rows.erase p
      events := before.events ++ sent
      deleted := before.deleted + 1 }) :
    StatusTells r (.empty 204) before after where
  added hs := absurd hs (show (204 : Nat) ≠ 201 by decide)
  removed _ := ⟨p, hrow, hpath, sent, hsent, hledger⟩
  nothing _ hs := absurd rfl hs

end StatusTells

private theorem tells_under {w : Workload} (h : w.Reachable)
    (hids : w.catalog.supply.next.Distinct) (limit : Nat) (r : Request) (plan : Plan) :
    let answer := respondUnder plan limit w.catalog r
    StatusTells r answer.2 w.catalog.ledger answer.1.ledger := by
  intro answer
  obtain ⟨others, hreserves⟩ := h.apart hids.of_next
  have hrows := hreserves.ids
  rw [List.map_append] at hrows
  rcases demand_cases limit r with hquiet | ⟨input, hdemand, hpost, hroute⟩ | ⟨id, hdemand, hpath⟩
  · obtain ⟨hledger, hne⟩ := hquiet.answer plan w.catalog
    exact .of_idle hne hledger
  · have hanswer : answer = (Demand.create input).answer (disturbed plan w.catalog) := by
      rw [← hdemand]
      rfl
    rcases create_effect plan w.catalog input with
      ⟨hresponse, hledger⟩ | ⟨e, hresponse, hledger⟩ | ⟨hresponse, sent, hsent, hledger⟩
    · rw [hanswer, hresponse]
      exact .of_added hledger
    · rw [hanswer, hresponse]
      exact .of_idle (status_failure_ne e) hledger
    · rw [hanswer, hresponse]
      refine ⟨nofun, nofun, fun _ _ => .inr ⟨rfl, rfl, hpost, hroute, _, ?_, sent, hsent, hledger⟩⟩
      -- the id has been drawn for this creation, so no row has it
      have hnew := hreserves.drawn _ hids.unused_id
      rw [hledger]
      intro p hp heq
      refine hnew (List.mem_map.2 ⟨p, List.mem_append_left _ hp, heq⟩)
  · have hanswer : answer = (Demand.delete id).answer (disturbed plan w.catalog) := by
      rw [← hdemand]
      rfl
    rcases delete_effect plan w.catalog id with
      ⟨hresponse, ⟨p, hp, rfl⟩, sent, hsent, hledger⟩ | ⟨e, hresponse, hledger⟩
    · rw [hanswer, hresponse]
      refine .of_removed hp hpath hsent ?_
      have hkeep :=
        filter_key_eq_erase (l := w.catalog.ledger.rows) (List.nodup_append.1 hrows).1 hp
      rw [hledger, hkeep]
      rfl
    · rw [hanswer, hresponse]
      exact .of_idle (status_failure_ne e) hledger

/--
The status of the answer to a request, of whatever method, path, headers and
body, tells what the request has done, whichever of its steps fail under a
plan, and also without one.
-/
theorem status_tells_effect {w : Workload} (h : w.Reachable)
    (hids : w.catalog.supply.next.Distinct) (limit : Nat) (r : Request) (plan : Plan) :
    let answer := respondUnder plan limit w.catalog r
    let plain := respond limit w.catalog r
    StatusTells r answer.2 w.catalog.ledger answer.1.ledger ∧
      StatusTells r plain.2 w.catalog.ledger plain.1.ledger := by
  intro answer plain
  have hplain : plain = respondUnder (fun _ => none) limit w.catalog r :=
    (respondUnder_none limit w.catalog r).symm
  refine ⟨tells_under h hids limit r plan, ?_⟩
  rw [hplain]
  exact tells_under h hids limit r fun _ => none

/-- The commit of a creation fails, and its event is taken back.  Without the fault the product is
added, and the answer is an object with its fields. -/
theorem status_tells_effect_of_failed_commit :
    ∃ (w : Workload) (r : Request) (plan : Plan), w.Reachable ∧
      w.catalog.supply.next.Distinct ∧
      (respondUnder plan 1000 w.catalog r).2.status = 500 ∧
      (respondUnder plan 1000 w.catalog r).1.events =
        [⟨.created, .timed 0 1⟩, ⟨.deleted, .timed 0 1⟩] ∧
      StatusTells r (respondUnder plan 1000 w.catalog r).2 w.catalog.ledger
        (respondUnder plan 1000 w.catalog r).1.ledger ∧
      (respond 1000 w.catalog r).2.status = 201 ∧
      ∃ p, (respond 1000 w.catalog r).1.ledger.rows = w.catalog.ledger.rows ++ [p] ∧
        ∃ bytes, Text.encode (respond 1000 w.catalog r).2.body = 0x7B :: (bytes ++ [0x7D]) ∧
          Json.SpellsFields true p.fields bytes := by
  let sessions := Sessions.run { supply := .ticking ⟨0, 0⟩ }
    [.begin, .insert 0 ⟨"Cup", "Acme", "", default⟩, .commit 0]
  let c : Catalog := { Catalog.empty (.ticking ⟨0, 0⟩) with
    store := sessions.store
    supply := sessions.supply }
  let r : Request := {
    method := "POST"
    target := "/products-api/v1/products"
    headers := [("content-type", "application/json")]
    body := Text.encode "\x7b\"name\":\"Lamp\",\"vendor\":\"Acme\",\"price\":1\x7d" }
  let plan : Plan := fun n => if n = 3 then some { store := { commits := 1 } } else none
  have hreachable : Workload.Reachable ⟨c, []⟩ := .start rfl rfl
  have hdrawn : ∀ j < c.supply.next.drawn, ∀ i < j,
      c.supply.next.idAt i ≠ c.supply.next.idAt j := by
    decide
  have hids : c.supply.next.Distinct := fun i j hij hj => hdrawn j hj i hij
  obtain ⟨hstatus, hevents, hplain⟩ : (respondUnder plan 1000 c r).2.status = 500 ∧
      (respondUnder plan 1000 c r).1.events =
        [⟨.created, .timed 0 1⟩, ⟨.deleted, .timed 0 1⟩] ∧
      (respond 1000 c r).2.status = 201 := by
    decide +kernel
  obtain ⟨hfailed, hadded⟩ := status_tells_effect hreachable hids 1000 r plan
  obtain ⟨p, -, hbody, -, hafter⟩ := hadded.added hplain
  exact ⟨⟨c, []⟩, r, plan, hreachable, hids, hstatus, hevents, hfailed, hplain, p,
    congrArg Ledger.rows hafter, hbody⟩

end ProductCatalog.Http.Products
