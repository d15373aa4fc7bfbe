import Mathlib.Logic.Function.Basic
import ProductCatalog.Proofs.Catalog.Faultless
import ProductCatalog.Proofs.Catalog.Reachable

/-!
# Calls that compete

Creations compete for the key of their product, and deletions for the row
that they are to remove.  Such a *prize* is gone as soon as one call has won
it, and it stays gone as long as nothing brings it back: a key comes back
only with a deletion, and a row never does.  So at most one call wins, and a
call loses only if the prize is gone.

## Main results

* `Contest.step`, `Contest.decided` — a contest, step by step and in the end.
* `Request.Advance.plays_key`, `plays_row` — a step as a move in a contest.
* `Workload.Race.contest_key`, `contest_row` — contests in every interleaving.
* `Workload.addedBy_events`, `count_addedBy_trace` — what one call sends, told
  from the events and from the trace.
-/

namespace ProductCatalog

/-! ## Contests -/

/-- How a call stands that competes for a prize. -/
inductive Standing
  | trying
  | won
  | lost
deriving DecidableEq

/--
Calls that compete for one prize, each known by its number and with its
standing.  The prize is gone if it was gone before or if a call has won it;
no two calls have won, and none if the prize was gone before; calls have lost
only if it is gone.
-/
structure Contest (before gone : Prop) (standings : Nat → Option Standing) : Prop where
  gone_iff : gone ↔ before ∨ ∃ i, standings i = some .won
  fair : before → ∀ i, standings i ≠ some .won
  one : ∀ i j, standings i = some .won → standings j = some .won → i = j
  lost : ∀ i, standings i = some .lost → gone

namespace Contest

variable {before gone gone' : Prop} {standings : Nat → Option Standing}

/-- What a call can do to a prize and its own standing. -/
inductive Move (gone gone' : Prop) : Option Standing → Option Standing → Prop
  | rest {standing} (h : gone' ↔ gone) : Move gone gone' standing standing
  | hold (h : gone') : Move gone gone' (some .won) (some .won)
  | win (hfree : ¬ gone) (hgone : gone') : Move gone gone' (some .trying) (some .won)
  | lose (hgone : gone) (hgone' : gone') : Move gone gone' (some .trying) (some .lost)

/-- A contest in which nobody has moved. -/
theorem start (h : ∀ i standing, standings i = some standing → standing = .trying) :
    Contest gone gone standings where
  gone_iff := ⟨.inl, fun hor => hor.elim id fun ⟨i, hi⟩ => nomatch h i _ hi⟩
  fair _ i hi := nomatch h i _ hi
  one i _ hi := nomatch h i _ hi
  lost i hi := nomatch h i _ hi

/-- A move of one call keeps the contest. -/
theorem step (h : Contest before gone standings) {i : Nat} {next : Option Standing}
    (hmove : Move gone gone' (standings i) next) :
    Contest before gone' (Function.update standings i next) := by
  generalize hstanding : standings i = standing at hmove
  cases hmove with
  | rest hgone =>
      rw [← hstanding, Function.update_eq_self]
      exact ⟨hgone.trans h.gone_iff, h.fair, h.one, fun j hj => hgone.2 (h.lost j hj)⟩
  | hold hgone =>
      have hbefore : gone := h.gone_iff.2 (.inr ⟨i, hstanding⟩)
      rw [← hstanding, Function.update_eq_self]
      exact ⟨⟨fun _ => h.gone_iff.1 hbefore, fun _ => hgone⟩, h.fair, h.one, fun _ _ => hgone⟩
  | win hfree hgone =>
      have hnobody : ∀ j, standings j ≠ some .won := fun j hj => hfree (h.gone_iff.2 (.inr ⟨j, hj⟩))
      have hwinner : ∀ j, Function.update standings i (some .won) j = some .won → j = i := by
        intro j hj
        by_contra hne
        rw [Function.update_of_ne hne] at hj
        exact hnobody j hj
      refine ⟨⟨fun _ => .inr ⟨i, Function.update_self ..⟩, fun _ => hgone⟩, ?_, ?_,
        fun _ _ => hgone⟩
      · exact fun hb => absurd (h.gone_iff.2 (.inl hb)) hfree
      · exact fun j k hj hk => (hwinner j hj).trans (hwinner k hk).symm
  | lose hgone hgone' =>
      have hold : ∀ j, Function.update standings i (some .lost) j = some .won ↔
          standings j = some .won := by
        intro j
        by_cases hji : j = i
        · subst hji
          simp [hstanding]
        · rw [Function.update_of_ne hji]
      refine ⟨⟨fun _ => ?_, fun _ => hgone'⟩, ?_, ?_, fun _ _ => hgone'⟩
      · simpa only [hold] using h.gone_iff.1 hgone
      · intro hb j
        rw [ne_eq, hold]
        exact h.fair hb j
      · intro j k hj hk
        exact h.one j k ((hold j).1 hj) ((hold k).1 hk)

/--
Once nobody is trying any more: if the prize was free and somebody has
competed for it, one call has won and all others have lost; if it was gone,
all have lost.
-/
theorem decided (h : Contest before gone standings) (hover : ∀ i, standings i ≠ some .trying) :
    (¬ before → (∃ i, standings i ≠ none) →
        ∃ i, standings i = some .won ∧ ∀ j ≠ i, standings j ≠ none → standings j = some .lost) ∧
      (before → ∀ i, standings i ≠ none → standings i = some .lost) := by
  have hcases : ∀ i, standings i ≠ none → standings i = some .won ∨ standings i = some .lost := by
    intro i hi
    obtain ⟨standing, hstanding⟩ := Option.ne_none_iff_exists'.1 hi
    cases standing with
    | trying => exact absurd hstanding (hover i)
    | won => exact .inl hstanding
    | lost => exact .inr hstanding
  constructor
  · rintro hfree ⟨i, hi⟩
    have hgone : gone := by
      rcases hcases i hi with hwon | hlost
      · exact h.gone_iff.2 (.inr ⟨i, hwon⟩)
      · exact h.lost i hlost
    obtain ⟨winner, hwinner⟩ := (h.gone_iff.1 hgone).resolve_left hfree
    refine ⟨winner, hwinner, fun j hne hj => (hcases j hj).resolve_left fun hwon => ?_⟩
    exact hne (h.one j winner hwon hwinner)
  · exact fun hb i hi => (hcases i hi).resolve_left (h.fair hb i)

end Contest

/-! ## Prizes -/

/-- What calls compete for. -/
inductive Prize
  /-- The key of a product that is to be created. -/
  | key (key : ProductKey)
  /-- The row that is to be deleted. -/
  | row (id : ProductId)
deriving DecidableEq

/-- What the call of a request competes for. -/
def Request.prize? : Request → Option Prize
  | create input => some (.key input.key)
  | delete id => some (.row id)
  | list _ => none

/-- Whether a prize cannot be won any more. -/
def Ledger.Gone (l : Ledger) : Prize → Prop
  | .key key => l.keyTaken key = true
  | .row id => ∀ p ∈ l.rows, p.id ≠ id

/-- How a creation stands. -/
def CreateCall.standing : CreateCall → Standing
  | start _ | begun .. => .trying
  | inserted .. | published .. | finished (.ok _) => .won
  | failing .. | retracting .. | finished (.error _) => .lost

/-- How a deletion stands. -/
def DeleteCall.standing : DeleteCall → Standing
  | start _ => .trying
  | removed _ | finished (.ok _) => .won
  | finished (.error _) => .lost

/-- How a call stands in the contest for its prize. -/
def Call.standing : Call → Standing
  | create call => call.standing
  | delete call => call.standing
  | list _ | listed _ => .trying

namespace Ledger

theorem keyTaken_iff (l : Ledger) (key : ProductKey) :
    l.keyTaken key = true ↔ key ∈ l.reserved ∨ ∃ p ∈ l.rows, p.key = key := by
  simp [keyTaken]

theorem keyTaken_reserve (l : Ledger) (own key : ProductKey) :
    (l.reserve own).keyTaken key = true ↔ l.keyTaken key = true ∨ key = own := by
  simp only [keyTaken_iff, reserve, List.mem_append, List.mem_singleton]
  exact or_right_comm

/-- A commit leaves the keys of others as they are. -/
theorem keyTaken_commit (l : Ledger) (p : Product) {key : ProductKey} (hne : key ≠ p.key) :
    ({ l.release [p.key] with rows := l.rows ++ [p], created := l.created + 1 } : Ledger).keyTaken
        key = true ↔ l.keyTaken key = true := by
  simp [keyTaken_iff, release, hne, Ne.symm hne]

end Ledger

namespace Request

/--
What a step means to those who compete for a prize: a call that competes for
it makes a move, and any other leaves it where it is.
-/
structure Plays (prize : Prize) (l l' : Ledger) (request : Request) (call call' : Call) :
    Prop where
  own : request.prize? = some prize →
    Contest.Move (l.Gone prize) (l'.Gone prize) (some call.standing) (some call'.standing)
  other : request.prize? ≠ some prize → (l'.Gone prize ↔ l.Gone prize)

/-- A step may leave the prize and the standing of its call. -/
theorem Plays.idle {prize : Prize} {l l' : Ledger} {request : Request} {call call' : Call}
    (hgone : l'.Gone prize ↔ l.Gone prize) (hstanding : call'.standing = call.standing) :
    Plays prize l l' request call call' where
  own _ := by
    rw [hstanding]
    exact .rest hgone
  other _ := hgone

variable {c c' : Catalog} {request : Request} {call call' : Call} {more : List Attempt}

/-- What a step of a creation or a listing means to those who compete for a key. -/
theorem Advance.plays_key (h : Advance c c' request call call' more)
    (hno : ∀ id, request ≠ .delete id) (key : ProductKey) :
    Plays (.key key) c.ledger c'.ledger request call call' := by
  cases h with
  | begin hl | undo hl | list hl | rest _ hl => exact .idle (by rw [hl]) rfl
  | announce hl => exact .idle (by rw [hl]; exact Iff.rfl) rfl
  | remove | miss | finish => exact absurd rfl (hno _)
  | @insert input product _ _ hfree hl =>
      by_cases hkey : input.key = key
      · subst hkey
        refine ⟨fun _ => .win ?_ ?_, fun hne => absurd rfl hne⟩
        · rw [Ledger.Gone, hfree]
          decide
        · rw [Ledger.Gone, hl, Ledger.keyTaken_reserve]
          exact .inr rfl
      · refine ⟨fun heq => absurd (Prize.key.inj (Option.some.inj heq)) hkey, fun _ => ?_⟩
        rw [Ledger.Gone, Ledger.Gone, hl, Ledger.keyTaken_reserve]
        exact or_iff_left (Ne.symm hkey)
  | @refuse input htaken hl =>
      by_cases hkey : input.key = key
      · subst hkey
        rw [hl]
        exact ⟨fun _ => .lose htaken htaken, fun _ => Iff.rfl⟩
      · refine ⟨fun heq => absurd (Prize.key.inj (Option.some.inj heq)) hkey, fun _ => ?_⟩
        rw [hl]
  | @commit input product hproduct hl =>
      by_cases hkey : product.key = key
      · subst hkey
        have hgone : c'.ledger.Gone (.key product.key) := by
          rw [Ledger.Gone, Ledger.keyTaken_iff, hl]
          exact .inr ⟨product, List.mem_append_right _ List.mem_cons_self, rfl⟩
        refine ⟨fun _ => .hold hgone, fun hne => absurd ?_ hne⟩
        rw [prize?, hproduct]
      · refine .idle ?_ rfl
        rw [Ledger.Gone, Ledger.Gone, hl]
        exact Ledger.keyTaken_commit _ _ (Ne.symm hkey)

/-- What a step means to those who compete for a row, if no product with its id is added. -/
theorem Advance.plays_row (h : Advance c c' request call call' more) {id : ProductId}
    (hothers : ∀ p ∈ call.pending, p.id ≠ id) :
    Plays (.row id) c.ledger c'.ledger request call call' := by
  cases h with
  | begin hl | undo hl | list hl | rest _ hl => exact .idle (by rw [hl]) rfl
  | announce hl | finish hl => exact .idle (by rw [hl]; exact Iff.rfl) rfl
  | insert _ _ _ hl => exact ⟨nofun, fun _ => by rw [hl]; exact Iff.rfl⟩
  | refuse _ hl => exact ⟨nofun, fun _ => by rw [hl]⟩
  | @commit input product _ hl =>
      have hne : product.id ≠ id := hothers product List.mem_cons_self
      refine .idle ?_ rfl
      rw [hl]
      simp [Ledger.Gone, hne, or_imp, forall_and]
  | @remove own hrow hl =>
      by_cases hid : own = id
      · subst hid
        obtain ⟨p, hp, hpid⟩ := hrow
        refine ⟨fun _ => .win (fun hnone => hnone p hp hpid) ?_, fun hne => absurd rfl hne⟩
        rw [hl]
        simp [Ledger.Gone]
      · refine ⟨fun heq => absurd (Prize.row.inj (Option.some.inj heq)) hid, fun _ => ?_⟩
        -- a row with this id is none of those that are removed
        rw [hl]
        refine ⟨fun hnone p hp hpid => hnone p ?_ hpid, fun hnone p hp => ?_⟩
        · exact List.mem_filter.2 ⟨hp, by simpa [hpid] using Ne.symm hid⟩
        · exact hnone p (List.mem_of_mem_filter hp)
  | @miss own hnone hl =>
      by_cases hid : own = id
      · subst hid
        rw [hl]
        exact ⟨fun _ => .lose hnone hnone, fun _ => Iff.rfl⟩
      · exact ⟨fun heq => absurd (Prize.row.inj (Option.some.inj heq)) hid, fun _ => by rw [hl]⟩

end Request

/--
The id of a row that was there before is drawn, and no product that waits has
it, so that it comes back with none.
-/
structure Workload.Taken (id : ProductId) (w : Workload) : Prop where
  drawn : ¬ w.catalog.supply.Unused id
  others : ∀ call ∈ w.calls, ∀ p ∈ call.pending, p.id ≠ id

/-- A step adds no product with an id that is drawn, unless it draws it again. -/
theorem Request.Advance.taken {c c' : Catalog} {request : Request} {call call' : Call}
    {more : List Attempt} (h : Advance c c' request call call' more) (hd : c'.supply.Distinct)
    {id : ProductId} (hdrawn : ¬ c.supply.Unused id) (hothers : ∀ p ∈ call.pending, p.id ≠ id) :
    ¬ c'.supply.Unused id ∧ ∀ p ∈ call'.pending, p.id ≠ id := by
  cases h with
  | @insert input product _ hid _ _ hs =>
      rw [hs] at hd ⊢
      refine ⟨fun hunused => hdrawn hunused.of_next, fun p hp hpid => ?_⟩
      obtain rfl := List.mem_singleton.1 hp
      exact hdrawn (hpid ▸ hid ▸ hd.unused_id)
  | announce _ hs | rest _ _ hs => exact ⟨hs ▸ hdrawn, hothers⟩
  | begin _ hs | refuse _ _ hs | commit _ _ hs | undo _ hs | remove _ _ hs | miss _ _ hs
  | finish _ hs | list _ hs => exact ⟨hs ▸ hdrawn, nofun⟩

/-! ## Every interleaving -/

namespace Workload

/-- The attempts that one call makes while a schedule is run. -/
def attemptsOf (i : Nat) : Workload → List Nat → List Attempt
  | _, [] => []
  | w, j :: rest => (if i = j then w.attempts j else []) ++ attemptsOf i (w.step j) rest

/-- What the steps of one call add to a list in the catalog, while a schedule is run. -/
def addedBy {α : Type} (view : Catalog → List α) (i : Nat) : Workload → List Nat → List α
  | _, [] => []
  | w, j :: rest =>
    (if i = j then (view (w.step j).catalog).drop (view w.catalog).length else []) ++
      addedBy view i (w.step j) rest

/-- The events that one call sends are those of its attempts that the queue takes. -/
theorem addedBy_events (i : Nat) (w : Workload) (schedule : List Nat) :
    addedBy Catalog.events i w schedule = accepted (attemptsOf i w schedule) := by
  induction schedule generalizing w with
  | nil => rfl
  | cons j rest ih =>
      rw [addedBy, attemptsOf, accepted_append, ih, w.events_step j, List.drop_left]
      by_cases hij : i = j
      · rw [if_pos hij, if_pos hij]
      · rw [if_neg hij, if_neg hij]
        rfl

/-- One call leaves the mark of a send for each of its attempts. -/
theorem count_addedBy_trace (i : Nat) (w : Workload) (schedule : List Nat) :
    (addedBy Catalog.trace i w schedule).count .send = (attemptsOf i w schedule).length := by
  induction schedule generalizing w with
  | nil => rfl
  | cons j rest ih =>
      obtain ⟨marks, htrace, hsends⟩ := w.trace_step j
      rw [addedBy, attemptsOf, List.count_append, List.length_append, ih, htrace, List.drop_left]
      by_cases hij : i = j
      · rw [if_pos hij, if_pos hij, hsends]
      · rw [if_neg hij, if_neg hij]
        rfl

/-- The calls of a family of requests, each on its track, while nothing fails. -/
structure Race (family : List Request) (sent : Nat → List Attempt) (w : Workload) : Prop where
  faultless : w.catalog.Faultless
  length : w.calls.length = family.length
  tracks : ∀ (i : Nat) (request : Request) (call : Call), family[i]? = some request →
    w.calls[i]? = some call → request.Tracks call (sent i)

/-- How the calls of a family stand that compete for a prize. -/
def standings (family : List Request) (prize : Prize) (w : Workload) (i : Nat) : Option Standing :=
  match family[i]?, w.calls[i]? with
  | some request, some call => if request.prize? = some prize then some call.standing else none
  | _, _ => none

namespace Race

variable {family : List Request} {sent : Nat → List Attempt} {w : Workload}

theorem start (c : Catalog) (family : List Request) :
    Race family (fun _ => []) ⟨c.inject {}, family.map Request.call⟩ where
  faultless := .of_inject c
  length := List.length_map _
  tracks i request call hrequest hcall := by
    rw [List.getElem?_map, hrequest] at hcall
    obtain rfl := Option.some.inj hcall
    exact .of_request request

/-- The request whose call makes a step, and how the call advances. -/
theorem advance (h : Race family sent w) {i : Nat} {call : Call} (hcall : w.calls[i]? = some call) :
    ∃ request, family[i]? = some request ∧ request.Tracks call (sent i) ∧
      request.Advance w.catalog (call.step w.catalog).1 call (call.step w.catalog).2
        (call.attempts w.catalog) ∧
      (call.step w.catalog).1.Faultless := by
  obtain ⟨hi, -⟩ := List.getElem?_eq_some_iff.1 hcall
  have hrequest := List.getElem?_eq_getElem (h.length ▸ hi : i < family.length)
  have htracks := h.tracks i _ call hrequest hcall
  exact ⟨_, hrequest, htracks, htracks.step h.faultless⟩

/-- A step keeps all calls on their tracks. -/
theorem step (h : Race family sent w) (j : Nat) :
    Race family (fun i => sent i ++ if i = j then w.attempts j else []) (w.step j) := by
  cases hcall : w.calls[j]? with
  | none =>
      rw [(step_of_none hcall).1, (step_of_none hcall).2]
      simpa using h
  | some call =>
      obtain ⟨request, hrequest, htracks, hadvance, hfaultless⟩ := h.advance hcall
      rw [(step_of_some hcall).1, (step_of_some hcall).2]
      refine ⟨hfaultless, (List.length_set ..).trans h.length, ?_⟩
      intro i request' call' hrequest' hcall'
      by_cases hij : i = j
      · subst hij
        rw [hrequest] at hrequest'
        obtain rfl := Option.some.inj hrequest'
        rw [List.getElem?_set_self (List.getElem?_eq_some_iff.1 hcall).1] at hcall'
        obtain rfl := Option.some.inj hcall'
        rw [if_pos rfl]
        exact htracks.advance hadvance
      · rw [List.getElem?_set_ne (Ne.symm hij)] at hcall'
        rw [if_neg hij, List.append_nil]
        exact h.tracks i request' call' hrequest' hcall'

theorem run (h : Race family sent w) (schedule : List Nat) :
    Race family (fun i => sent i ++ attemptsOf i w schedule) (w.run schedule) := by
  induction schedule generalizing sent w with
  | nil =>
      show Race family (fun i => sent i ++ []) w
      simpa only [List.append_nil] using h
  | cons j rest ih =>
      show Race family _ ((w.step j).run rest)
      have hrest := ih (h.step j)
      simpa only [attemptsOf, List.append_assoc] using hrest

/-- What a step means to those who compete for a prize, as far as its own call goes. -/
theorem contest_step (h : Race family sent w) {prize : Prize} {before : Prop} {i : Nat}
    (hcontest : Contest before (w.catalog.ledger.Gone prize) (w.standings family prize))
    (hplays : ∀ (request : Request) (call : Call), family[i]? = some request →
      w.calls[i]? = some call → request.Plays prize w.catalog.ledger
        (call.step w.catalog).1.ledger call (call.step w.catalog).2) :
    Contest before ((w.step i).catalog.ledger.Gone prize) ((w.step i).standings family prize) := by
  cases hcall : w.calls[i]? with
  | none =>
      rw [(step_of_none hcall).1]
      exact hcontest
  | some call =>
      obtain ⟨request, hrequest, -⟩ := h.advance hcall
      have hplay := hplays request call hrequest hcall
      obtain ⟨hi, -⟩ := List.getElem?_eq_some_iff.1 hcall
      rw [(step_of_some hcall).1]
      have hnow : w.standings family prize i =
          if request.prize? = some prize then some call.standing else none := by
        simp only [standings, hrequest, hcall]
      have hthen : standings family prize
            ⟨(call.step w.catalog).1, w.calls.set i (call.step w.catalog).2⟩ =
          Function.update (w.standings family prize) i
            (if request.prize? = some prize then some (call.step w.catalog).2.standing
              else none) := by
        funext j
        by_cases hji : j = i
        · subst hji
          simp only [standings, hrequest, List.getElem?_set_self hi, Function.update_self]
        · rw [Function.update_of_ne hji]
          simp only [standings, List.getElem?_set_ne (Ne.symm hji)]
      rw [hthen]
      refine hcontest.step ?_
      rw [hnow]
      by_cases hprize : request.prize? = some prize
      · rw [if_pos hprize, if_pos hprize]
        exact hplay.own hprize
      · rw [if_neg hprize, if_neg hprize]
        exact .rest (hplay.other hprize)

/-- At the start of a race nobody has moved. -/
theorem contest_start (c : Catalog) (family : List Request) (prize : Prize) :
    Contest (c.ledger.Gone prize) (c.ledger.Gone prize)
      (standings family prize ⟨c, family.map Request.call⟩) := by
  refine .start fun i standing hstanding => ?_
  simp only [standings, List.getElem?_map] at hstanding
  cases hrequest : family[i]? with
  | none => simp [hrequest] at hstanding
  | some request =>
      simp only [hrequest, Option.map_some] at hstanding
      split at hstanding
      · rw [← Option.some.inj hstanding]
        cases request <;> rfl
      · cases hstanding

/-- Without deletions the contest for a key goes on in every interleaving. -/
theorem contest_key (h : Race family sent w) {key : ProductKey} {before : Prop}
    (hno : ∀ id, .delete id ∉ family)
    (hcontest : Contest before (w.catalog.ledger.Gone (.key key)) (w.standings family (.key key)))
    (schedule : List Nat) :
    Contest before ((w.run schedule).catalog.ledger.Gone (.key key))
      ((w.run schedule).standings family (.key key)) := by
  induction schedule generalizing sent w with
  | nil => exact hcontest
  | cons i rest ih =>
      refine ih (h.step i) (h.contest_step hcontest ?_)
      intro request call hrequest hcall
      obtain ⟨request', hrequest', -, hadvance, -⟩ := h.advance hcall
      obtain rfl := Option.some.inj (hrequest.symm.trans hrequest')
      refine hadvance.plays_key (fun id heq => hno id ?_) key
      exact heq ▸ List.mem_of_getElem? hrequest

/-- A step adds no product with an id that is drawn, unless it draws it again. -/
theorem taken_step (h : Race family sent w) {id : ProductId} (htaken : w.Taken id) {i : Nat}
    (hd : (w.step i).catalog.supply.Distinct) : (w.step i).Taken id := by
  cases hcall : w.calls[i]? with
  | none =>
      rw [(step_of_none hcall).1]
      exact htaken
  | some call =>
      obtain ⟨request, -, -, hadvance, -⟩ := h.advance hcall
      rw [(step_of_some hcall).1] at hd ⊢
      obtain ⟨hdrawn, hothers⟩ :=
        hadvance.taken hd htaken.drawn (htaken.others call (List.mem_of_getElem? hcall))
      refine ⟨hdrawn, fun other hother => ?_⟩
      rcases List.mem_or_eq_of_mem_set hother with hother | rfl
      · exact htaken.others other hother
      · exact hothers

/-- If no id has been drawn twice, the contest for a row goes on in every interleaving. -/
theorem contest_row (h : Race family sent w) {id : ProductId} {before : Prop}
    (htaken : w.Taken id)
    (hcontest : Contest before (w.catalog.ledger.Gone (.row id)) (w.standings family (.row id)))
    (schedule : List Nat) (hd : (w.run schedule).catalog.supply.Distinct) :
    Contest before ((w.run schedule).catalog.ledger.Gone (.row id))
      ((w.run schedule).standings family (.row id)) := by
  induction schedule generalizing sent w with
  | nil => exact hcontest
  | cons i rest ih =>
      have hd' : (w.step i).catalog.supply.Distinct := distinct_of_run rest hd
      refine ih (h.step i) (h.taken_step htaken hd') (h.contest_step hcontest ?_) hd
      intro request call hrequest hcall
      obtain ⟨request', hrequest', -, hadvance, -⟩ := h.advance hcall
      obtain rfl := Option.some.inj (hrequest.symm.trans hrequest')
      exact hadvance.plays_row (htaken.others call (List.mem_of_getElem? hcall))

end Race

end Workload

end ProductCatalog
