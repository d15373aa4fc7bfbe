import ProductCatalog.Proofs.Event.Spelling
import ProductCatalog.Proofs.Json.Accepted

/-!
# Every body has its answer

A body is an envelope if it is an object with exactly one field for the kind
and one for the id, both texts, and any fields of other names; or an array
of exactly the two texts.  What the two texts say does not matter to this.

An envelope that is read has been spelled, and one that is spelled is read.
So each of the answers to a body is given exactly where it applies: a body of
nothing but blanks is empty; any other that is no envelope is malformed; an
envelope with an unknown kind is told so, whatever its id; one whose id is
none is malformed again; and all others are events.

## Main definitions

* `Envelope.Spells` — the bodies that are envelopes, with their two texts.

## Main results

* `Envelope.read_eq_ok_iff` — envelopes are what is read as one.
* `bodies_classified` — the answer to every body.
-/

namespace ProductCatalog

open Json Text

namespace Envelope

/-- The bodies that are envelopes with these two texts. -/
inductive Spells (eventType productId : String) : Bytes → Prop
  /-- An object with the two fields once, in either order, and fields of other names. -/
  | object {others : List String} {fields : List Field} {w bytes w' : Bytes}
      (hothers : ∀ name ∈ others, name ≠ "event_type" ∧ name ≠ "product_id")
      (hfields : fields.Perm (("event_type", .text eventType) ::
        ("product_id", .text productId) :: others.map (·, .any)))
      (hw : Blanks w) (hbytes : SpellsFields true fields bytes) (hw' : Blanks w') :
      Spells eventType productId (w ++ 0x7B :: (bytes ++ 0x7D :: w'))
  /-- An array of the two texts. -/
  | array {w bytes inner w' : Bytes} (hw : Blanks w)
      (hbytes : SpellsElements true [.text eventType, .text productId] bytes)
      (hinner : Blanks inner) (hw' : Blanks w') :
      Spells eventType productId (w ++ 0x5B :: (bytes ++ (inner ++ 0x5D :: w')))

/-! ## What fills an envelope -/

/-- Both members of an envelope are texts. -/
theorem isText_members :
    Member.IsText (members.head (by decide)) (fun e s => { e with eventType := some s }) ∧
      Member.IsText (members.getLast (by decide)) (fun e s => { e with productId := some s }) :=
  ⟨fun _ _ => rfl, fun _ _ => rfl⟩

theorem faithful_members : ∀ m ∈ members, m.Faithful := by
  intro m hm
  rcases List.mem_pair.1 hm with rfl | rfl
  · exact isText_members.1.faithful
  · exact isText_members.2.faithful

/-- The member of a name. -/
theorem eq_of_find?_members {name : String} {member : Member Envelope}
    (h : members.find? (·.name = name) = some member) :
    name = "event_type" ∧ member = members.head (by decide) ∨
      name = "product_id" ∧ member = members.getLast (by decide) := by
  have hmem := List.mem_of_find?_eq_some h
  have hfound := List.find?_some h
  have hname : member.name = name := of_decide_eq_true hfound
  rcases List.mem_pair.1 hmem with rfl | rfl
  · exact .inl ⟨hname.symm, rfl⟩
  · exact .inr ⟨hname.symm, rfl⟩

/-- The field that a member was filled from, if it was filled. -/
private def gained (name : String) (before after : Option String) : List Field :=
  if before.isSome then [] else after.toList.map fun s => (name, .text s)

/-- What fills an envelope further are a field for each member that was filled, and fields of
other names; what was filled before stays. -/
theorem perm_of_takes {draft draft' : Envelope} {fields : List Field}
    (h : Takes members draft fields draft') :
    (draft.eventType.isSome → draft'.eventType = draft.eventType) ∧
      (draft.productId.isSome → draft'.productId = draft.productId) ∧
      ∃ others : List String, (∀ name ∈ others, name ≠ "event_type" ∧ name ≠ "product_id") ∧
        fields.Perm (gained "event_type" draft.eventType draft'.eventType ++
          (gained "product_id" draft.productId draft'.productId ++ others.map (·, .any))) := by
  induction h with
  | @nil draft =>
      refine ⟨fun _ => rfl, fun _ => rfl, [], by simp, ?_⟩
      have hnone : ∀ name (text : Option String), gained name text text = [] := by
        intro name text
        cases text <;> rfl
      rw [hnone, hnone]
      exact .refl _
  | @known draft draft₁ draft' member name content fields hfind hread _ ih =>
      obtain ⟨hkind, hid, others, hothers, hperm⟩ := ih
      rcases eq_of_find?_members hfind with ⟨rfl, rfl⟩ | ⟨rfl, rfl⟩
      · obtain ⟨s, rfl, rfl⟩ := isText_members.1.yields_iff.1 hread.read
        have hunset : draft.eventType.isSome = false := hread.unset
        have hset : draft'.eventType = some s := hkind rfl
        refine ⟨fun h => absurd h (by rw [hunset]; decide), hid, others, hothers, ?_⟩
        rw [gained, hunset, hset]
        exact hperm.cons _
      · obtain ⟨s, rfl, rfl⟩ := isText_members.2.yields_iff.1 hread.read
        have hunset : draft.productId.isSome = false := hread.unset
        have hset : draft'.productId = some s := hid rfl
        refine ⟨hkind, fun h => absurd h (by rw [hunset]; decide), others, hothers, ?_⟩
        rw [gained, gained, hunset, hset]
        exact (hperm.cons _).trans List.perm_middle.symm
  | @unknown draft draft' name fields hfind _ ih =>
      obtain ⟨hkind, hid, others, hothers, hperm⟩ := ih
      have hname : ¬ (name = "event_type" ∨ name = "product_id") := by
        rw [← find?_members, hfind]
        decide
      refine ⟨hkind, hid, name :: others, ?_, ?_⟩
      · exact List.forall_mem_cons.2 ⟨not_or.1 hname, hothers⟩
      · rw [← List.append_assoc, List.map_cons]
        rw [← List.append_assoc] at hperm
        exact (hperm.cons _).trans List.perm_middle.symm

/-- The elements that fill an envelope are two texts. -/
theorem fills_iff {contents : List Content} {envelope : Envelope} :
    Fills members {} contents envelope ↔ ∃ eventType productId,
      contents = [.text eventType, .text productId] ∧
        envelope = ⟨some eventType, some productId⟩ := by
  constructor
  · intro h
    obtain _ | ⟨hkind, _ | ⟨hid, _ | _⟩⟩ := h
    obtain ⟨eventType, rfl, rfl⟩ := isText_members.1.yields_iff.1 hkind
    obtain ⟨productId, rfl, rfl⟩ := isText_members.2.yields_iff.1 hid
    exact ⟨eventType, productId, rfl, rfl⟩
  · rintro ⟨eventType, productId, rfl, rfl⟩
    exact .cons (isText_members.1.yields_iff.2 ⟨_, rfl, rfl⟩)
      (.cons (isText_members.2.yields_iff.2 ⟨_, rfl, rfl⟩) .nil)

/-! ## Reading -/

theorem readRecord_of_spelled {eventType productId : String} {body : Bytes}
    (h : Spells eventType productId body) :
    ∃ w', Blanks w' ∧ readRecord "struct WireIn" members {} body =
      .ok (⟨some eventType, some productId⟩, w') := by
  cases h with
  | @object _ _ _ _ w' hothers hfields hw hbytes hw' =>
      exact ⟨w', hw', readRecord_of_spells w' hw hbytes (takes_fields hothers hfields)
        (by simp [members])⟩
  | @array _ _ _ w' hw hbytes hinner hw' =>
      exact ⟨w', hw', readRecord_of_elements w' hw hbytes (fills_iff.2 ⟨_, _, rfl, rfl⟩) hinner⟩

theorem spelled_of_readRecord {body rest : Bytes} {envelope : Envelope}
    (h : readRecord "struct WireIn" members {} body = .ok (envelope, rest)) (hrest : Blanks rest) :
    ∃ eventType productId, envelope = ⟨some eventType, some productId⟩ ∧
      Spells eventType productId body := by
  have hrequired : ∀ m ∈ members, m.required = true := by
    intro m hm
    rcases List.mem_pair.1 hm with rfl | rfl <;> rfl
  rcases Json.spelled_of_readRecord faithful_members hrequired h with
    ⟨w, fields, spelled, hw, hspelled, htakes, hcomplete, rfl⟩ |
    ⟨w, contents, spelled, inner, hw, hspelled, hfills, hinner, rfl⟩
  · obtain ⟨-, -, others, hothers, hperm⟩ := perm_of_takes htakes
    obtain ⟨eventType, htype⟩ := Option.isSome_iff_exists.1
      (hcomplete (members.head (by decide)) (List.head_mem _))
    obtain ⟨productId, hid⟩ := Option.isSome_iff_exists.1
      (hcomplete (members.getLast (by decide)) (List.getLast_mem _))
    obtain ⟨_, _⟩ := envelope
    obtain rfl := htype
    obtain rfl := hid
    exact ⟨eventType, productId, rfl, .object hothers hperm hw hspelled hrest⟩
  · obtain ⟨eventType, productId, rfl, rfl⟩ := fills_iff.1 hfills
    exact ⟨eventType, productId, rfl, .array hw hspelled hinner hrest⟩

/-- Envelopes are what is read as one, with their two texts. -/
theorem read_eq_ok_iff {body : Bytes} {envelope : Envelope} :
    read body = .ok envelope ↔ ∃ eventType productId,
      envelope = ⟨some eventType, some productId⟩ ∧ Spells eventType productId body := by
  constructor
  · intro h
    obtain ⟨⟨envelope', rest⟩, hread, hend⟩ := exists_of_bind_ok h
    obtain ⟨w, hw, hrest⟩ := exists_blanks rest
    dsimp only at hend
    split at hend
    · next hskip =>
        obtain rfl := Except.ok.inj hend
        rw [hskip, List.append_nil] at hrest
        exact spelled_of_readRecord hread (by rwa [hrest])
    · cases hend
  · rintro ⟨eventType, productId, rfl, h⟩
    obtain ⟨w', hw', hread⟩ := readRecord_of_spelled h
    rw [read, wholeText, hread]
    simp only [bind, Except.bind, hw'.skipped, pure, Except.pure]

/-- No envelope is blank. -/
theorem Spells.not_blank {eventType productId : String} {body : Bytes}
    (h : Spells eventType productId body) : body.all isBlankByte = false := by
  have hbrackets : isBlankByte 0x7B = false ∧ isBlankByte 0x5B = false := by decide
  cases h with
  | object => rw [List.all_append, List.all_cons, hbrackets.1, Bool.false_and, Bool.and_false]
  | array => rw [List.all_append, List.all_cons, hbrackets.2, Bool.false_and, Bool.and_false]

end Envelope

/-! ## The answers -/

theorem all_isBlankByte_iff {body : Bytes} :
    body.all isBlankByte = true ↔ ∀ b ∈ body, b ∈ [0x09, 0x0A, 0x0C, 0x0D, 0x20] := by
  rw [List.all_eq_true]
  refine forall₂_congr fun b _ => ?_
  simp only [isBlankByte, Bool.or_eq_true, decide_eq_true_eq, List.mem_cons, List.not_mem_nil,
    or_false]
  tauto

/-- The answer to an envelope is neither of the two for other bodies. -/
theorem Envelope.event_ne (eventType productId : String) :
    Envelope.event eventType productId ≠ .error .empty ∧
      ∀ fault, Envelope.event eventType productId ≠ .error (.notEnvelope fault) := by
  unfold Envelope.event
  split
  · exact ⟨nofun, nofun⟩
  split
  · exact ⟨nofun, nofun⟩
  · exact ⟨nofun, nofun⟩

/-- The answer to an envelope is that to its two texts. -/
theorem decode_of_envelope {eventType productId : String} {body : Bytes}
    (h : Envelope.Spells eventType productId body) :
    decode body = Envelope.event eventType productId := by
  rw [decode, h.not_blank, Envelope.read_eq_ok_iff.2 ⟨_, _, rfl, h⟩]
  rfl

theorem decode_eq_empty_iff {body : Bytes} :
    decode body = .error .empty ↔ body.all isBlankByte = true := by
  rw [decode]
  split
  · next h => exact iff_of_true rfl h
  next h =>
  refine iff_of_false ?_ h
  split
  · intro hempty
    cases hempty
  · exact (Envelope.event_ne _ _).1

theorem decode_eq_notEnvelope_iff {body : Bytes} :
    (∃ fault, decode body = .error (.notEnvelope fault)) ↔
      ¬ body.all isBlankByte = true ∧
        ¬ ∃ eventType productId, Envelope.Spells eventType productId body := by
  rw [decode]
  split
  · next h =>
      refine iff_of_false ?_ fun hnot => hnot.1 h
      rintro ⟨_, hfault⟩
      cases hfault
  next h =>
  split
  · next fault hread =>
      refine iff_of_true ⟨fault, rfl⟩ ⟨h, ?_⟩
      rintro ⟨eventType, productId, hspells⟩
      rw [Envelope.read_eq_ok_iff.2 ⟨_, _, rfl, hspells⟩] at hread
      cases hread
  · next envelope hread =>
      obtain ⟨eventType, productId, -, hspells⟩ := Envelope.read_eq_ok_iff.1 hread
      refine iff_of_false ?_ fun hnot => hnot.2 ⟨eventType, productId, hspells⟩
      rintro ⟨fault, hfault⟩
      exact (Envelope.event_ne _ _).2 fault hfault

/-- A name that no kind has is reported, whatever the id is. -/
theorem Envelope.event_of_unknown {eventType : String} (productId : String)
    (h : ∀ kind : EventKind, kind.wireName ≠ eventType) :
    Envelope.event eventType productId = .error (.unknownEventType eventType) := by
  have hname : EventKind.ofWireName? eventType = none := by
    rw [EventKind.ofWireName?, if_neg (Ne.symm (h .created)), if_neg (Ne.symm (h .deleted))]
  rw [Envelope.event, hname]

/-- With the name of a kind, the answer depends on the id. -/
theorem Envelope.event_of_kind (kind : EventKind) (productId : String) :
    ((∃ fault, Envelope.event kind.wireName productId = .error (.badProductId fault)) ↔
      ¬ ∃ id : ProductId, id.Spells productId.toList) ∧
      ∀ id : ProductId, id.Spells productId.toList →
        Envelope.event kind.wireName productId = .ok ⟨kind, id⟩ := by
  rw [Envelope.event, EventKind.ofWireName?_wireName, ProductId.parse]
  dsimp only
  cases hparse : ProductId.parse? productId with
  | some id =>
      have hid : id.Spells productId.toList := ProductId.parse?_eq_some_iff.1 hparse
      refine ⟨iff_of_false ?_ fun hnone => hnone ⟨id, hid⟩, ?_⟩
      · rintro ⟨_, hfault⟩
        cases hfault
      · intro id' hid'
        rw [ProductId.parse?_of_spells hid', Option.some.injEq] at hparse
        rw [hparse]
  | none =>
      have hnone : ¬ ∃ id : ProductId, id.Spells productId.toList := by
        rintro ⟨id, hid⟩
        rw [ProductId.parse?_of_spells hid] at hparse
        cases hparse
      exact ⟨iff_of_true ⟨_, rfl⟩ hnone, fun id hid => absurd ⟨id, hid⟩ hnone⟩

/--
**Every body has its answer.** A body is empty if and only if all of its
bytes are ASCII blanks.  Any other is refused as no envelope if and only if
it spells none, whatever else it is.  An envelope with a name that no kind
has is refused for the name, which is reported as it reads, whatever the id;
with the name of a kind, it is refused for the id if and only if this spells
none, and else is the event of that kind and that id.
-/
theorem bodies_classified (body : Bytes) :
    (decode body = .error .empty ↔ ∀ b ∈ body, b ∈ [0x09, 0x0A, 0x0C, 0x0D, 0x20]) ∧
    ((∃ fault, decode body = .error (.notEnvelope fault)) ↔
      (∃ b ∈ body, b ∉ [0x09, 0x0A, 0x0C, 0x0D, 0x20]) ∧
        ¬ ∃ eventType productId, Envelope.Spells eventType productId body) ∧
    ∀ eventType productId, Envelope.Spells eventType productId body →
      ((∀ kind : EventKind, kind.wireName ≠ eventType) →
        decode body = .error (.unknownEventType eventType)) ∧
      ∀ kind : EventKind, kind.wireName = eventType →
        ((∃ fault, decode body = .error (.badProductId fault)) ↔
          ¬ ∃ id : ProductId, id.Spells productId.toList) ∧
        ∀ id : ProductId, id.Spells productId.toList → decode body = .ok ⟨kind, id⟩ := by
  have hsome : (∃ b ∈ body, b ∉ [0x09, 0x0A, 0x0C, 0x0D, 0x20]) ↔
      ¬ body.all isBlankByte = true := by
    rw [all_isBlankByte_iff]
    push Not
    rfl
  refine ⟨?_, ?_, fun eventType productId h => ?_⟩
  · rw [decode_eq_empty_iff, all_isBlankByte_iff]
  · rw [hsome, decode_eq_notEnvelope_iff]
  · rw [decode_of_envelope h]
    refine ⟨Envelope.event_of_unknown productId, ?_⟩
    rintro kind rfl
    exact Envelope.event_of_kind kind productId

/-- An array with an unknown name and an id that is none is refused for the name; with the name of
a kind, for the id. -/
theorem bodies_classified_of_arrays :
    let body name := asciiBytes ("[ \"" ++ name ++ "\", \"42\"]\n").toList
    decode (body "update_product") = .error (.unknownEventType "update_product") ∧
      ∃ fault, decode (body "delete_product") = .error (.badProductId fault) := by
  intro body
  have hplain : ∀ s : String, s.toList.all isPlain = true →
      SpellsContent (.text s) (0x22 :: (asciiBytes s.toList ++ [0x22])) :=
    fun s h => .text (spellsText_plain s (List.all_eq_true.1 h))
  have harray : ∀ name : String, name.toList.all isPlain = true →
      Envelope.Spells name "42" ([] ++ 0x5B :: (([0x20] ++ (0x22 :: (asciiBytes name.toList ++
        [0x22]) ++ (([] ++ 0x2C :: [0x20]) ++ (0x22 :: (asciiBytes "42".toList ++ [0x22]) ++
          [])))) ++ ([] ++ 0x5D :: [0x0A]))) :=
    fun name h => .array .nil (.cons (.first (by decide +kernel)) (hplain name h)
      (.cons (.next .nil (by decide +kernel)) (hplain "42" (by decide +kernel)) .nil)) .nil
        (by decide +kernel)
  have hbad : ¬ ∃ id : ProductId, id.Spells ("42" : String).toList := by
    rintro ⟨id, hid⟩
    have hparse := ProductId.parse?_of_spells hid
    rw [(by decide +kernel : ProductId.parse? "42" = none)] at hparse
    cases hparse
  have hunknown : Envelope.Spells "update_product" "42" (body "update_product") := by
    have h := harray "update_product" (by decide +kernel)
    exact (congrArg _ (by decide +kernel : _ = body "update_product")).mp h
  have hknown : Envelope.Spells "delete_product" "42" (body "delete_product") := by
    have h := harray "delete_product" (by decide +kernel)
    exact (congrArg _ (by decide +kernel : _ = body "delete_product")).mp h
  refine ⟨?_, ?_⟩
  · refine ((bodies_classified _).2.2 _ _ hunknown).1 fun kind => ?_
    cases kind <;> decide
  · exact (((bodies_classified _).2.2 _ _ hknown).2 .deleted (by decide)).1.2 hbad

end ProductCatalog
