import ProductCatalog.Proofs.Json.Skipped
import ProductCatalog.Proofs.Json.Written

/-!
# What a record is read from

A record that is read has been spelled, in one of two ways.  An object is
spelled by its fields, and the fields fill the draft as `Takes` has it.  An
array is spelled by its elements, and these fill the draft one after the
other, in the order of the members.

Both directions are proved for arrays; for objects, the other one is the
main result on members.

## Main definitions

* `SpellsElements` — the bytes that spell the first elements of an array.
* `Fills` — what elements do to a draft.
* `Member.Faithful` — a member that reads nothing but contents.

## Main results

* `readRecord_of_elements` — reading an array fills the draft.
* `takes_of_readMembers`, `fills_of_readPositional` — what fills a draft has been spelled.
* `spelled_of_readRecord` — a record that is read has been spelled.
-/

namespace ProductCatalog.Json

open Text

/-! ## Tokens -/

theorem eq_of_nextMember_none {first : Bool} {bytes rest : Bytes}
    (h : nextMember first bytes = .ok (none, rest)) :
    ∃ w tail, Blanks w ∧ bytes = w ++ rest ∧ rest = 0x7D :: tail := by
  obtain ⟨w, hw, hbytes⟩ := exists_blanks bytes
  unfold nextMember at h
  split at h
  · cases h
  next b tail hskip =>
  split at h
  · next hb =>
      obtain ⟨-, rfl⟩ := Prod.mk.inj (Except.ok.inj h)
      exact ⟨w, tail, hw, by rw [← hskip]; exact hbytes, by rw [hb]⟩
  · grind [failNext]

theorem eq_of_nextMember_some {first : Bool} {bytes rest rest' : Bytes}
    (h : nextMember first bytes = .ok (some rest, rest')) :
    ∃ lead, Lead first lead ∧ bytes = lead ++ 0x22 :: rest := by
  obtain ⟨w, hw, hbytes⟩ := exists_blanks bytes
  unfold nextMember at h
  split at h
  · cases h
  next b tail hskip =>
  split at h
  · cases h
  split at h
  · next hfirst =>
      split at h
      · next hb =>
          obtain ⟨heq, -⟩ := Prod.mk.inj (Except.ok.inj h)
          obtain rfl := Option.some.inj heq
          rw [hfirst]
          exact ⟨w, .first hw, by rw [hbytes, hskip, hb]⟩
      · cases h
  next hfirst =>
  split at h
  · next hb =>
      obtain ⟨w', hw', htail⟩ := exists_blanks tail
      split at h
      · cases h
      next c tail' hskip' =>
      split at h
      · next hc =>
          obtain ⟨heq, -⟩ := Prod.mk.inj (Except.ok.inj h)
          obtain rfl := Option.some.inj heq
          rw [Bool.eq_false_iff.2 hfirst]
          refine ⟨w ++ 0x2C :: w', .next hw hw', ?_⟩
          rw [hbytes, hskip, htail, hskip', hb, hc, List.append_assoc]
          rfl
      · split at h <;> cases h
  · cases h

theorem eq_of_nextElement_some {first : Bool} {bytes rest rest' : Bytes}
    (h : nextElement first bytes = .ok (some rest, rest')) :
    ∃ lead, Lead first lead ∧ bytes = lead ++ rest := by
  obtain ⟨w, hw, hbytes⟩ := exists_blanks bytes
  unfold nextElement at h
  split at h
  · cases h
  next b tail hskip =>
  split at h
  · cases h
  split at h
  · next hfirst =>
      obtain ⟨heq, -⟩ := Prod.mk.inj (Except.ok.inj h)
      obtain rfl := Option.some.inj heq
      rw [hfirst]
      exact ⟨w, .first hw, by rw [← hskip]; exact hbytes⟩
  next hfirst =>
  split at h
  · next hb =>
      obtain ⟨w', hw', htail⟩ := exists_blanks tail
      split at h
      · cases h
      next c tail' hskip' =>
      split at h
      · cases h
      · obtain ⟨heq, -⟩ := Prod.mk.inj (Except.ok.inj h)
        obtain rfl := Option.some.inj heq
        rw [Bool.eq_false_iff.2 hfirst]
        refine ⟨w ++ 0x2C :: w', .next hw hw', ?_⟩
        rw [← hskip', hbytes, hskip, hb, List.append_assoc, List.cons_append, ← htail]
  · cases h

theorem eq_of_skipColon {bytes rest : Bytes} (h : skipColon bytes = .ok rest) :
    ∃ w, Blanks w ∧ bytes = w ++ 0x3A :: rest := by
  obtain ⟨w, hw, hbytes⟩ := exists_blanks bytes
  unfold skipColon at h
  split at h
  · cases h
  next b tail hskip =>
  split at h
  · next hb =>
      obtain rfl := Except.ok.inj h
      exact ⟨w, hw, by rw [hbytes, hskip, hb]⟩
  · cases h

theorem eq_of_closeList {bytes rest : Bytes} (h : closeList bytes = .ok rest) :
    ∃ w, Blanks w ∧ bytes = w ++ 0x5D :: rest := by
  obtain ⟨w, hw, hbytes⟩ := exists_blanks bytes
  unfold closeList at h
  split at h
  · cases h
  next b tail hskip =>
  split at h
  · next hb =>
      obtain rfl := Except.ok.inj h
      exact ⟨w, hw, by rw [hbytes, hskip, hb]⟩
  split at h
  · split at h <;> cases h
  · cases h

/-! ## Contents -/

/-- No value is acceptable where another type is expected. -/
theorem wrongTypeHere_ne_ok {α : Type} (expected : String) (bytes : Bytes) (value : α) :
    wrongTypeHere expected bytes ≠ .ok value := by
  intro h
  unfold wrongTypeHere at h
  dsimp only at h
  split at h
  · cases h
  iterate 6
    split at h
    · obtain ⟨_, -, hmismatch⟩ := exists_of_bind_ok h
      cases hmismatch
  iterate 2
    split at h
    · cases h
  cases h

/-- A text that is read has been spelled. -/
theorem eq_of_readText {bytes rest : Bytes} {s : String} (h : readText bytes = .ok (s, rest)) :
    ∃ w value, Blanks w ∧ SpellsContent (.text s) value ∧ bytes = w ++ (value ++ rest) := by
  obtain ⟨w, hw, hbytes⟩ := exists_blanks bytes
  unfold readText readTextAs at h
  split at h
  · cases h
  next b tail hskip =>
  split at h
  · next hb =>
      obtain ⟨⟨text, tail'⟩, hstring, hvalue⟩ := exists_of_bind_ok h
      obtain ⟨rfl, rfl⟩ := Prod.mk.inj (Except.ok.inj hvalue)
      obtain ⟨body, rfl, hbody⟩ := eq_of_readString hstring
      refine ⟨w, _, hw, .text hbody, ?_⟩
      rw [hbytes, hskip, hb]
      simp
  · exact absurd h (wrongTypeHere_ne_ok _ _ _)

variable {σ : Type} {members : List (Member σ)}

/-- What a member makes of a draft, from whatever spells a content. -/
def Member.Yields (member : Member σ) (draft : σ) (content : Content) (draft' : σ) : Prop :=
  ∀ w value rest, Blanks w → SpellsContent content value → Ends rest →
    member.read draft (w ++ (value ++ rest)) = .ok (draft', rest)

/-- A member that reads nothing but what spells a content. -/
def Member.Faithful (member : Member σ) : Prop :=
  ∀ draft bytes draft' rest, member.read draft bytes = .ok (draft', rest) →
    ∃ w content value, Blanks w ∧ SpellsContent content value ∧ bytes = w ++ (value ++ rest) ∧
      member.Yields draft content draft'

/-- A member whose value is a text, and what it makes of a draft. -/
def Member.IsText (member : Member σ) (set : σ → String → σ) : Prop :=
  ∀ draft bytes, member.read draft bytes =
    (readText bytes).map fun (s, rest) => (set draft s, rest)

/-- The member takes texts and nothing else. -/
theorem Member.IsText.yields_iff {member : Member σ} {set : σ → String → σ}
    (h : member.IsText set) {draft draft' : σ} {content : Content} :
    member.Yields draft content draft' ↔ ∃ s, content = .text s ∧ draft' = set draft s := by
  constructor
  · intro hyields
    cases content with
    | text s =>
        obtain ⟨body, hbody⟩ := exists_spellsText s
        have hread := hyields [] _ [] .nil (.text hbody) .nil
        rw [h, readText_of_spells [] .nil (.text hbody)] at hread
        exact ⟨s, rfl, (Prod.mk.inj (Except.ok.inj hread)).1.symm⟩
    | any =>
        have hread := hyields [] _ [] .nil (.any (.scalar .null)) .nil
        rw [h] at hread
        cases hread
  · rintro ⟨s, rfl, rfl⟩ w value rest hw hvalue -
    rw [h, readText_of_spells rest hw hvalue]
    rfl

theorem Member.IsText.faithful {member : Member σ} {set : σ → String → σ}
    (h : member.IsText set) : member.Faithful := by
  intro draft bytes draft' rest hread
  rw [h] at hread
  obtain ⟨⟨s, rest'⟩, htext, heq⟩ := exists_of_map_ok hread
  obtain ⟨rfl, rfl⟩ := Prod.mk.inj heq
  obtain ⟨w, value, hw, hvalue, hbytes⟩ := eq_of_readText htext
  exact ⟨w, .text s, value, hw, hvalue, hbytes, h.yields_iff.2 ⟨s, rfl, rfl⟩⟩

/-! ## Objects -/

/-- What fills a draft from an object are its fields. -/
theorem takes_of_readMembers (hmembers : ∀ m ∈ members, m.Faithful) {fuel : Nat} {first : Bool}
    {draft draft' : σ} {bytes rest : Bytes}
    (h : readMembers members fuel first draft bytes = .ok (draft', rest)) :
    ∃ fields spelled, SpellsFields first fields spelled ∧ Takes members draft fields draft' ∧
      bytes = spelled ++ rest ∧ ∃ tail, rest = 0x7D :: tail := by
  induction fuel generalizing first draft bytes with
  | zero => cases h
  | succ fuel ih =>
      rw [readMembers] at h
      split at h
      · cases h
      · next hnext =>
          obtain ⟨rfl, rfl⟩ := Prod.mk.inj (Except.ok.inj h)
          obtain ⟨w, tail, hw, hbytes, hrest⟩ := eq_of_nextMember_none hnext
          exact ⟨[], w, .nil hw, .nil, hbytes, tail, hrest⟩
      next rest₁ _ hnext =>
      obtain ⟨lead, hlead, rfl⟩ := eq_of_nextMember_some hnext
      split at h
      · cases h
      next name rest₂ hstring =>
      obtain ⟨body, rfl, hbody⟩ := eq_of_readString hstring
      split at h
      · next hfind =>
          split at h
          · cases h
          next rest₃ hvalue =>
          obtain ⟨rest₄, hcolon, hskip⟩ := exists_of_bind_ok hvalue
          obtain ⟨w, hw, rfl⟩ := eq_of_skipColon hcolon
          obtain ⟨w', v, hw', hv, rfl⟩ := eq_of_skipValue hskip
          obtain ⟨fields, spelled, hspelled, htakes, rfl, htail⟩ := ih h
          refine ⟨(name, .any) :: fields, _,
            .cons hlead (.mk hbody hw hw' (.any hv)) hspelled, .unknown hfind htakes, ?_, htail⟩
          simp
      · next member hfind =>
          split at h
          · cases h
          next hunset =>
          split at h
          · cases h
          next draft₁ rest₃ hvalue =>
          obtain ⟨rest₄, hcolon, hread⟩ := exists_of_bind_ok hvalue
          obtain ⟨w, hw, rfl⟩ := eq_of_skipColon hcolon
          obtain ⟨w', content, value, hw', hcontent, rfl, hreads⟩ :=
            hmembers member (List.mem_of_find?_eq_some hfind) _ _ _ _ hread
          obtain ⟨fields, spelled, hspelled, htakes, rfl, htail⟩ := ih h
          refine ⟨(name, content) :: fields, _, .cons hlead (.mk hbody hw hw' hcontent) hspelled,
            .known hfind ⟨Bool.eq_false_iff.2 hunset, hreads⟩ htakes, ?_, htail⟩
          simp

/-! ## Arrays -/

/-- The bytes that spell the first elements of an array. -/
inductive SpellsElements : (first : Bool) → List Content → Bytes → Prop
  | nil {first : Bool} : SpellsElements first [] []
  | cons {first : Bool} {content : Content} {contents : List Content} {lead value rest : Bytes}
      (hlead : Lead first lead) (hcontent : SpellsContent content value)
      (hrest : SpellsElements false contents rest) :
      SpellsElements first (content :: contents) (lead ++ (value ++ rest))

/-- What elements do to a draft, one for each member. -/
inductive Fills : List (Member σ) → σ → List Content → σ → Prop
  | nil {draft : σ} : Fills [] draft [] draft
  | cons {member : Member σ} {members : List (Member σ)} {draft draft' draft'' : σ}
      {content : Content} {contents : List Content} (hread : member.Yields draft content draft')
      (hrest : Fills members draft' contents draft'') :
      Fills (member :: members) draft (content :: contents) draft''

/-- What is left of an array may follow an element. -/
theorem SpellsElements.ends {contents : List Content} {bytes w : Bytes}
    (h : SpellsElements false contents bytes) (hw : Blanks w) (rest : Bytes) :
    Ends (bytes ++ (w ++ 0x5D :: rest)) := by
  cases h with
  | nil => exact .of_blanks hw (by decide)
  | cons hlead _ _ =>
      rw [List.append_assoc]
      exact hlead.ends _

/-- No content begins with a blank or the end of a list. -/
theorem SpellsContent.head {content : Content} {value : Bytes} (h : SpellsContent content value) :
    ∃ b tail, value = b :: tail ∧ isBlank b = false ∧ b ≠ 0x5D := by
  cases h with
  | text => exact ⟨_, _, rfl, by decide, by decide⟩
  | any h =>
      obtain ⟨b, tail, rfl, hblank, hclose⟩ := h.head
      exact ⟨b, tail, rfl, hblank, hclose .list⟩

theorem nextElement_content {first : Bool} {lead value : Bytes} {content : Content}
    (rest : Bytes) (hlead : Lead first lead) (h : SpellsContent content value) :
    nextElement first (lead ++ (value ++ rest)) = .ok (some (value ++ rest), value ++ rest) := by
  obtain ⟨b, tail, rfl, hblank, hclose⟩ := h.head
  rw [List.cons_append]
  cases hlead with
  | first hw =>
      rw [nextElement, skipBlanks_token _ hw hblank]
      simp only [hclose, if_true, if_false]
  | next hw hw' =>
      have hcomma : ¬ (0x2C : UInt8) = 0x5D := by decide
      rw [List.append_assoc, List.cons_append, nextElement, skipBlanks_token _ hw (by decide)]
      simp only [hcomma, hclose, skipBlanks_token (tail ++ rest) hw' hblank, if_true, if_false,
        Bool.false_eq_true]

/-- Whatever spells the elements of an array, reading does to a draft what they do. -/
theorem readPositional_of_spells {first : Bool} {contents : List Content} {bytes w : Bytes}
    {draft draft' : σ} (phrase : String) (index : Nat) (h : SpellsElements first contents bytes)
    (hfills : Fills members draft contents draft') (hw : Blanks w) (rest : Bytes) :
    readPositional phrase members index first draft (bytes ++ (w ++ 0x5D :: rest)) =
      .ok (draft', w ++ 0x5D :: rest) := by
  induction h generalizing members draft index with
  | nil =>
      cases hfills
      rfl
  | @cons first content contents lead value tail hlead hcontent hrest ih =>
      obtain _ | @⟨member, members, _, draft₁, _, _, _, hread, hfills⟩ := hfills
      have hmember := hread [] value (tail ++ (w ++ 0x5D :: rest)) .nil hcontent
        (hrest.ends hw rest)
      rw [List.nil_append] at hmember
      rw [List.append_assoc, List.append_assoc, readPositional,
        nextElement_content _ hlead hcontent]
      simp only [hmember]
      exact ih _ hfills

theorem Lead.append {first : Bool} {lead w : Bytes} (h : Lead first lead) (hw : Blanks w) :
    Lead first (lead ++ w) := by
  cases h with
  | first h => exact .first (h.append hw)
  | next h h' =>
      rw [List.append_assoc, List.cons_append]
      exact .next h (h'.append hw)

/-- What fills a draft from an array are its elements, one for each member. -/
theorem fills_of_readPositional (hmembers : ∀ m ∈ members, m.Faithful)
    (hrequired : ∀ m ∈ members, m.required = true) {phrase : String} {index : Nat} {first : Bool}
    {draft draft' : σ} {bytes rest : Bytes}
    (h : readPositional phrase members index first draft bytes = .ok (draft', rest)) :
    ∃ contents spelled, SpellsElements first contents spelled ∧
      Fills members draft contents draft' ∧ bytes = spelled ++ rest := by
  induction members generalizing index first draft bytes with
  | nil =>
      obtain ⟨rfl, rfl⟩ := Prod.mk.inj (Except.ok.inj h)
      exact ⟨[], [], .nil, .nil, rfl⟩
  | cons member members ih =>
      rw [readPositional] at h
      split at h
      · cases h
      · rw [if_pos (hrequired member (List.mem_cons_self ..))] at h
        cases h
      next rest₁ _ hnext =>
      split at h
      · cases h
      next draft₁ rest₂ hread =>
      obtain ⟨lead, hlead, rfl⟩ := eq_of_nextElement_some hnext
      obtain ⟨w, content, value, hw, hcontent, rfl, hyields⟩ :=
        hmembers member (List.mem_cons_self ..) _ _ _ _ hread
      obtain ⟨contents, spelled, hspelled, hfills, rfl⟩ :=
        ih (fun m hm => hmembers m (List.mem_cons_of_mem _ hm))
          (fun m hm => hrequired m (List.mem_cons_of_mem _ hm)) h
      refine ⟨content :: contents, _, .cons (hlead.append hw) hcontent hspelled,
        .cons hyields hfills, ?_⟩
      simp

/-! ## Records -/

/-- Whatever spells an array, a record is read from its elements. -/
theorem readRecord_of_elements {expected : String} {contents : List Content}
    {w bytes w' : Bytes} {empty draft : σ} (rest : Bytes) (hw : Blanks w)
    (h : SpellsElements true contents bytes) (hfills : Fills members empty contents draft)
    (hw' : Blanks w') :
    readRecord expected members empty (w ++ 0x5B :: (bytes ++ (w' ++ 0x5D :: rest))) =
      .ok (draft, rest) := by
  have hclose : closeList (w' ++ 0x5D :: rest) = .ok rest := by
    rw [closeList, skipBlanks_token _ hw' (by decide)]
    rfl
  rw [readRecord, skipBlanks_token _ hw (by decide)]
  simp only [if_true, readPositional_of_spells _ _ h hfills hw' rest, enclosed, hclose, Except.map]

theorem exists_of_enclosed {α : Type} {contents : Except Fault (α × Bytes)}
    {after : Bytes → Bytes} {close : Bytes → Except Fault Bytes} {value : α} {rest : Bytes}
    (h : enclosed contents after close = .ok (value, rest)) :
    ∃ inner, contents = .ok (value, inner) ∧ close inner = .ok rest := by
  unfold enclosed at h
  split at h
  · cases h
  next inner =>
  obtain ⟨rest', hclose, heq⟩ := exists_of_map_ok h
  obtain ⟨rfl, rfl⟩ := Prod.mk.inj heq
  exact ⟨inner, rfl, hclose⟩

/-- A record that is read has been spelled, by the fields of an object that fill the draft, or by
the elements of an array. -/
theorem spelled_of_readRecord (hmembers : ∀ m ∈ members, m.Faithful)
    (hrequired : ∀ m ∈ members, m.required = true) {expected : String} {empty draft : σ}
    {bytes rest : Bytes} (h : readRecord expected members empty bytes = .ok (draft, rest)) :
    (∃ w fields spelled, Blanks w ∧ SpellsFields true fields spelled ∧
      Takes members empty fields draft ∧ (∀ m ∈ members, m.isSet draft = true) ∧
        bytes = w ++ 0x7B :: (spelled ++ 0x7D :: rest)) ∨
    ∃ w contents spelled w', Blanks w ∧ SpellsElements true contents spelled ∧
      Fills members empty contents draft ∧ Blanks w' ∧
        bytes = w ++ 0x5B :: (spelled ++ (w' ++ 0x5D :: rest)) := by
  obtain ⟨w, hw, hbytes⟩ := exists_blanks bytes
  unfold readRecord at h
  split at h
  · cases h
  next b tail hskip =>
  rw [hbytes, hskip]
  split at h
  · next hb =>
      obtain ⟨inner, hread, hclose⟩ := exists_of_enclosed h
      obtain ⟨contents, spelled, hspelled, hfills, rfl⟩ :=
        fills_of_readPositional hmembers hrequired hread
      obtain ⟨w', hw', rfl⟩ := eq_of_closeList hclose
      rw [hb]
      exact .inr ⟨w, contents, spelled, w', hw, hspelled, hfills, hw', rfl⟩
  split at h
  · next hb =>
      obtain ⟨inner, hcheck, hclose⟩ := exists_of_enclosed h
      obtain ⟨⟨draft₁, inner₁⟩, hread, hcomplete⟩ := exists_of_bind_ok hcheck
      dsimp only at hcomplete
      split at hcomplete
      · cases hcomplete
      next hmissing =>
      obtain ⟨rfl, rfl⟩ := Prod.mk.inj (Except.ok.inj hcomplete)
      obtain ⟨fields, spelled, hspelled, htakes, rfl, tail', rfl⟩ :=
        takes_of_readMembers hmembers hread
      have hset : ∀ m ∈ members, m.isSet draft₁ = true := by
        intro m hm
        have hfound := List.find?_eq_none.1 hmissing m hm
        simpa [hrequired m hm] using hfound
      obtain rfl : tail' = rest := Except.ok.inj hclose
      rw [hb]
      exact .inl ⟨w, fields, spelled, hw, hspelled, htakes, hset, rfl⟩
  · exact absurd h (wrongTypeHere_ne_ok _ _ _)

end ProductCatalog.Json
