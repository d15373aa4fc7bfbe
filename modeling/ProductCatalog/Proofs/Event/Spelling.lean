import Mathlib.Data.List.Permutation
import ProductCatalog.Event.Envelope
import ProductCatalog.Proofs.Json.Written
import ProductCatalog.Proofs.Product.Spelling

/-!
# Every spelling of an event is read as the event

An event is spelled by a JSON object with its two fields in either order and
any further fields of other names anywhere, with blanks wherever JSON has
them, with any spelling of the names and the texts, and with any spelling of
the id.  The one form that is written is among them.

## Main definitions

* `LifecycleEvent.Spells` — the bodies that spell an event.

## Main results

* `decode_of_spells` — a body is read as the event that it spells.
* `LifecycleEvent.spells_encode` — the body that is written spells its event.
* `decode_encode` — so that it is read back.
* `spellings_decoded` — so writing is undone, whatever spelling comes in its place.
-/

namespace ProductCatalog

open Json Text

/-- The bodies that spell an event. -/
inductive LifecycleEvent.Spells (event : LifecycleEvent) : Bytes → Prop
  | mk {id : String} {others : List String} {fields : List Field} {w bytes w' : Bytes}
      (hid : event.productId.Spells id.toList)
      (hothers : ∀ name ∈ others, name ≠ "event_type" ∧ name ≠ "product_id")
      (hfields : fields.Perm (("event_type", .text event.kind.wireName) ::
        ("product_id", .text id) :: others.map (·, .any)))
      (hw : Blanks w) (hbytes : SpellsFields true fields bytes) (hw' : Blanks w') :
      event.Spells (w ++ 0x7B :: (bytes ++ 0x7D :: w'))

/-! ## Reading -/

namespace Envelope

/-- The two fields of an envelope fill it in either order. -/
theorem takes_pair (kind id : String) :
    Takes members {} [("event_type", .text kind), ("product_id", .text id)]
        ⟨some kind, some id⟩ ∧
      Takes members {} [("product_id", .text id), ("event_type", .text kind)]
        ⟨some kind, some id⟩ := by
  have hkind : ∀ draft : Envelope, draft.eventType = none →
      Member.Reads (members.head (by decide)) draft (.text kind)
        { draft with eventType := some kind } := by
    intro draft hdraft
    refine ⟨by simp [members, hdraft], fun w value rest hw hvalue _ => ?_⟩
    simp only [members, List.head_cons, readText_of_spells rest hw hvalue]
    rfl
  have hid : ∀ draft : Envelope, draft.productId = none →
      Member.Reads (members.getLast (by decide)) draft (.text id)
        { draft with productId := some id } := by
    intro draft hdraft
    refine ⟨by simp [members, hdraft], fun w value rest hw hvalue _ => ?_⟩
    simp only [members, List.getLast_cons_cons, List.getLast_singleton,
      readText_of_spells rest hw hvalue]
    rfl
  constructor
  · exact .known rfl (hkind _ rfl) (.known rfl (hid _ rfl) .nil)
  · exact .known rfl (hid _ rfl) (.known rfl (hkind _ rfl) .nil)

/-- The two names are the names of the members. -/
theorem find?_members (name : String) :
    (members.find? (·.name = name)).isSome = true ↔ name = "event_type" ∨ name = "product_id" := by
  by_cases hkind : "event_type" = name
  · subst hkind
    exact iff_of_true rfl (.inl rfl)
  by_cases hid : "product_id" = name
  · subst hid
    exact iff_of_true rfl (.inr rfl)
  · have hnone : members.find? (·.name = name) = none := by
      simp only [members, List.find?_cons, hkind, hid, decide_false, List.find?_nil]
    rw [hnone]
    exact iff_of_false (by decide) (not_or.2 ⟨Ne.symm hkind, Ne.symm hid⟩)

/-- The fields of an envelope fill it in any order, with any others among them. -/
theorem takes_fields {kind id : String} {others : List String} {fields : List Field}
    (hothers : ∀ name ∈ others, name ≠ "event_type" ∧ name ≠ "product_id")
    (hfields : fields.Perm (("event_type", .text kind) :: ("product_id", .text id) ::
      others.map (·, .any))) :
    Takes members {} fields ⟨some kind, some id⟩ := by
  have hunknown : (others.map fun name => ((name, .any) : Field)).filter
      (fun field => (members.find? (·.name = field.1)).isSome) = [] := by
    rw [List.filter_eq_nil_iff]
    intro field hfield
    obtain ⟨name, hname, rfl⟩ := List.mem_map.1 hfield
    rw [find?_members]
    exact not_or.2 (hothers name hname)
  have hpair := hfields.filter fun field => (members.find? (·.name = field.1)).isSome
  rw [List.filter_cons_of_pos rfl, List.filter_cons_of_pos rfl, hunknown, List.perm_pair] at hpair
  refine Takes.of_filter ?_ ?_
  · intro field hfield hnone
    have hname : ¬ (field.1 = "event_type" ∨ field.1 = "product_id") := by
      rw [← find?_members, hnone]
      decide
    rcases List.mem_cons.1 (hfields.mem_iff.1 hfield) with rfl | hfield
    · exact absurd (.inl rfl) hname
    rcases List.mem_cons.1 hfield with rfl | hfield
    · exact absurd (.inr rfl) hname
    · obtain ⟨name, -, rfl⟩ := List.mem_map.1 hfield
      rfl
  · obtain ⟨hforth, hback⟩ := takes_pair kind id
    rcases hpair with h | h
    · rw [h]
      exact hforth
    · rw [h]
      exact hback

end Envelope

/-- A body is read as the event that it spells. -/
theorem decode_of_spells {event : LifecycleEvent} {body : Bytes} (h : event.Spells body) :
    decode body = .ok event := by
  obtain @⟨id, others, fields, w, bytes, w', hid, hothers, hfields, hw, hbytes, hw'⟩ := h
  have hblank : (w ++ 0x7B :: (bytes ++ 0x7D :: w')).all isBlankByte = false := by
    rw [List.all_append, List.all_cons]
    have hbrace : isBlankByte 0x7B = false := by decide
    rw [hbrace, Bool.false_and, Bool.and_false]
  have hread : Envelope.read (w ++ 0x7B :: (bytes ++ 0x7D :: w')) =
      .ok ⟨some event.kind.wireName, some id⟩ := by
    rw [Envelope.read, wholeText, readRecord_of_spells w' hw hbytes
      (Envelope.takes_fields hothers hfields) (by simp [Envelope.members])]
    simp only [bind, Except.bind, hw'.skipped, pure, Except.pure]
  have hparse : ProductId.parse id = .ok event.productId := by
    rw [ProductId.parse, ProductId.parse?_of_spells hid]
  rw [decode, hblank, hread]
  simp only [Bool.false_eq_true, if_false, Option.getD_some]
  rw [Envelope.event, EventKind.ofWireName?_wireName, hparse]

/-! ## Writing -/

/-- The body that is written spells its event. -/
theorem LifecycleEvent.spells_encode (event : LifecycleEvent) : event.Spells event.encode := by
  obtain ⟨bytes, hbytes, hfields⟩ := encode_writeObject
    (.cons (.text "event_type" event.kind.wireName)
      (.cons (.text "product_id" event.productId.text) .nil))
  have hbody := @Spells.mk event _ [] _ [] _ [] event.productId.spells_text
    (fun _ h => absurd h List.not_mem_nil) (.refl _) .nil hfields .nil
  rw [encode, envelope, hbytes]
  exact hbody

/-- The event that is written is the event that is read. -/
theorem decode_encode (event : LifecycleEvent) : decode event.encode = .ok event :=
  decode_of_spells event.spells_encode

/--
**Writing is undone in every spelling.** The body written for an event is
read as the event, and so is every other body that spells it; writing what
has been read gives the one written body again, and no two events share it.
-/
theorem spellings_decoded (event : LifecycleEvent) :
    decode event.encode = .ok event ∧ event.Spells event.encode ∧
      (∀ body, event.Spells body → decode body = .ok event ∧
        (decode body).map LifecycleEvent.encode = .ok event.encode) ∧
      ∀ other : LifecycleEvent, other.encode = event.encode → other = event := by
  refine ⟨decode_encode event, event.spells_encode, fun body h => ?_, fun other h => ?_⟩
  · rw [decode_of_spells h]
    exact ⟨rfl, rfl⟩
  · have hother := decode_encode other
    rw [h, decode_encode event, Except.ok.injEq] at hother
    exact hother.symm

/-- A body with its fields in the other order, another field between blanks, escapes in a name and
an id in braces and capitals. -/
theorem spellings_decoded_of_escapes :
    let event : LifecycleEvent := ⟨.created, .ofNat 10⟩
    let body := asciiBytes (" \x7b\"note\" :\t[null],\r\n\"product_id\":" ++
      "\"\x7b00000000-0000-0000-0000-00000000000A\x7d\"," ++
      "\"event\\u005Ftype\":\"create_product\"\x7d\n").toList
    event.Spells body ∧ decode body = .ok event := by
  intro event body
  have hplain : ∀ s : String, s.toList.all isPlain = true → SpellsText s (asciiBytes s.toList) :=
    fun s h => spellsText_plain s (List.all_eq_true.1 h)
  have hname : SpellsText "event_type" (asciiBytes "event\\u005Ftype".toList) := by
    have hmark : SpellsChar '_' (0x5C :: 0x75 :: asciiBytes ['0', '0', '5', 'F']) :=
      .numeric (by decide) ⟨_, by decide, rfl⟩
    have hevent := hplain "event" (by decide +kernel)
    exact hevent.append (.cons hmark (hplain "type" (by decide +kernel)))
  have hnull : WellFormed .value [0x5B, 0x6E, 0x75, 0x6C, 0x6C, 0x5D] :=
    @WellFormed.bracketed .list _ (.entry (.first .nil) .list (.scalar .null) (.done .nil))
  have hid : event.productId.Spells "\x7b00000000-0000-0000-0000-00000000000A\x7d".toList :=
    @ProductId.Spells.braced _ "00000000-0000-0000-0000-00000000000A".toList (by decide +kernel)
  have hnote := hplain "note" (by decide +kernel)
  have hkind := hplain "create_product" (by decide +kernel)
  have hproduct := hplain "product_id" (by decide +kernel)
  have hbraces := hplain "\x7b00000000-0000-0000-0000-00000000000A\x7d" (by decide +kernel)
  have hbytes := SpellsFields.cons (.first .nil)
    (.mk hnote (by decide +kernel : Blanks [0x20]) (by decide +kernel : Blanks [0x09])
      (.any hnull))
    (.cons (.next .nil (by decide +kernel : Blanks [0x0D, 0x0A]))
      (.mk hproduct .nil .nil (.text hbraces))
      (.cons (.next .nil .nil) (.mk hname .nil .nil (.text hkind)) (.nil .nil)))
  have hspells := @LifecycleEvent.Spells.mk event _ ["note"] _ [0x20] _ [0x0A] hid
    (by decide +kernel) (by decide +kernel) (by decide +kernel) hbytes (by decide +kernel)
  have hbody : event.Spells body :=
    (congrArg event.Spells (by decide +kernel : _ = body)).mp hspells
  exact ⟨hbody, ((spellings_decoded event).2.2.1 body hbody).1⟩

end ProductCatalog
