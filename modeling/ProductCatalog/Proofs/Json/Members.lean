import ProductCatalog.Json.Record
import ProductCatalog.Proofs.Json.Grammar

/-!
# The members of an object are read in any order

An object is spelled by its fields, each a name with what it holds.  A
reader of records looks a field up by its name: it takes one of its own
members into the draft and passes over every other field.  What the fields
do to a draft is a relation of its own, `Takes`, in which no byte occurs,
and every spelling of the fields does just this.

## Main definitions

* `SpellsFields` — the bytes that spell the fields of an object.
* `Takes` — what the fields of an object do to a draft.

## Main results

* `readMembers_of_spells`, `readRecord_of_spells` — reading does it, however the fields are
  spelled.
* `Takes.of_filter` — fields of other names make no difference.
-/

namespace ProductCatalog.Json

open Text

/-! ## Fields -/

/-- What a field holds, as far as it matters. -/
inductive Content
  /-- A string that spells a text. -/
  | text (s : String)
  /-- Any value. -/
  | any
deriving DecidableEq

/-- A field of an object: a name and what it holds. -/
abbrev Field := String × Content

/-- The bytes that spell what a field holds. -/
inductive SpellsContent : Content → Bytes → Prop
  | text {s : String} {body : Bytes} (h : SpellsText s body) :
      SpellsContent (.text s) (0x22 :: (body ++ [0x22]))
  | any {v : Bytes} (h : WellFormed .value v) : SpellsContent .any v

/-- The bytes that spell a field. -/
inductive SpellsField : Field → Bytes → Prop
  | mk {name : String} {content : Content} {body w w' value : Bytes}
      (hname : SpellsText name body) (hw : Blanks w) (hw' : Blanks w')
      (hcontent : SpellsContent content value) :
      SpellsField (name, content) (0x22 :: (body ++ 0x22 :: (w ++ 0x3A :: (w' ++ value))))

/-- The bytes that spell fields up to the end of an object. -/
inductive SpellsFields : (first : Bool) → List Field → Bytes → Prop
  | nil {first : Bool} {w : Bytes} (h : Blanks w) : SpellsFields first [] w
  | cons {first : Bool} {field : Field} {fields : List Field} {lead bytes rest : Bytes}
      (hlead : Lead first lead) (hfield : SpellsField field bytes)
      (hrest : SpellsFields false fields rest) :
      SpellsFields first (field :: fields) (lead ++ (bytes ++ rest))

/-- What is left of an object may follow a value. -/
theorem SpellsFields.ends {fields : List Field} {bytes : Bytes}
    (h : SpellsFields false fields bytes) (rest : Bytes) : Ends (bytes ++ 0x7D :: rest) := by
  cases h with
  | nil h => exact .of_blanks h (by decide)
  | cons hlead _ _ =>
      rw [List.append_assoc]
      exact hlead.ends _

/-! ## What fields do to a draft -/

variable {σ : Type} {members : List (Member σ)}

/-- A draft without a member takes it from whatever spells the content. -/
structure Member.Reads (member : Member σ) (draft : σ) (content : Content) (draft' : σ) : Prop where
  unset : member.isSet draft = false
  read : ∀ w value rest, Blanks w → SpellsContent content value → Ends rest →
    member.read draft (w ++ (value ++ rest)) = .ok (draft', rest)

/-- What the fields of an object do to a draft. -/
inductive Takes (members : List (Member σ)) : σ → List Field → σ → Prop
  | nil {draft : σ} : Takes members draft [] draft
  | known {draft draft' draft'' : σ} {member : Member σ} {name : String} {content : Content}
      {fields : List Field} (hfind : members.find? (·.name = name) = some member)
      (hread : member.Reads draft content draft') (hrest : Takes members draft' fields draft'') :
      Takes members draft ((name, content) :: fields) draft''
  | unknown {draft draft' : σ} {name : String} {fields : List Field}
      (hfind : members.find? (·.name = name) = none) (hrest : Takes members draft fields draft') :
      Takes members draft ((name, .any) :: fields) draft'

/-- Fields of other names make no difference, wherever they stand. -/
theorem Takes.of_filter {draft draft' : σ} {fields : List Field}
    (hother : ∀ field ∈ fields, members.find? (·.name = field.1) = none → field.2 = .any)
    (h : Takes members draft (fields.filter fun field =>
      (members.find? (·.name = field.1)).isSome) draft') :
    Takes members draft fields draft' := by
  induction fields generalizing draft with
  | nil => exact h
  | cons field fields ih =>
      obtain ⟨name, content⟩ := field
      have hother' := fun field hfield => hother field (List.mem_cons_of_mem _ hfield)
      cases hfind : members.find? (·.name = name) with
      | none =>
          obtain rfl : content = .any := hother (name, content) (by simp) hfind
          rw [List.filter_cons_of_neg (by simp [hfind])] at h
          exact .unknown hfind (ih hother' h)
      | some member =>
          rw [List.filter_cons_of_pos (by simp [hfind])] at h
          cases h with
          | known hfind hread hrest => exact .known hfind hread (ih hother' hrest)
          | unknown hnone => rw [hfind] at hnone; cases hnone

/-! ## Reading -/

theorem nextMember_field {first : Bool} {lead : Bytes} (rest : Bytes) (h : Lead first lead) :
    nextMember first (lead ++ 0x22 :: rest) = .ok (some rest, rest) := by
  have hquote : isBlank 0x22 = false := by decide
  cases h with
  | first hw =>
      rw [nextMember, skipBlanks_token _ hw hquote]
      rfl
  | next hw hw' =>
      rw [List.append_assoc, List.cons_append, nextMember, skipBlanks_token _ hw (by decide)]
      simp only [skipBlanks_token rest hw' hquote]
      rfl

theorem nextMember_close {w : Bytes} (first : Bool) (rest : Bytes) (h : Blanks w) :
    nextMember first (w ++ 0x7D :: rest) = .ok (none, 0x7D :: rest) := by
  rw [nextMember, skipBlanks_token _ h (by decide)]
  rfl

theorem skipColon_append {w : Bytes} (rest : Bytes) (h : Blanks w) :
    skipColon (w ++ 0x3A :: rest) = .ok rest := by
  rw [skipColon, skipBlanks_token _ h (by decide)]
  rfl

/-- A text is read from whatever spells it. -/
theorem readText_of_spells {s : String} {w value : Bytes} (rest : Bytes) (hw : Blanks w)
    (h : SpellsContent (.text s) value) : readText (w ++ (value ++ rest)) = .ok (s, rest) := by
  obtain @⟨_, body, h⟩ := h
  rw [List.cons_append, List.append_assoc, List.cons_append, List.nil_append, readText, readTextAs,
    skipBlanks_token _ hw (by decide)]
  simp only [if_true, readString_of_spells h rest]
  rfl

/-- Whatever spells the fields of an object, reading does to a draft what they do. -/
theorem readMembers_of_spells {first : Bool} {fields : List Field} {bytes : Bytes}
    {draft draft' : σ} (h : SpellsFields first fields bytes)
    (htakes : Takes members draft fields draft') (fuel : Nat) (rest : Bytes)
    (hfuel : bytes.length < fuel) :
    readMembers members fuel first draft (bytes ++ 0x7D :: rest) = .ok (draft', 0x7D :: rest) := by
  induction h generalizing draft fuel with
  | nil h =>
      obtain ⟨fuel, rfl⟩ := Nat.exists_eq_succ_of_ne_zero (by omega : fuel ≠ 0)
      cases htakes
      rw [readMembers, nextMember_close _ _ h]
  | @cons first field fields lead bytes tail hlead hfield hrest ih =>
      obtain ⟨fuel, rfl⟩ := Nat.exists_eq_succ_of_ne_zero (by omega : fuel ≠ 0)
      obtain @⟨name, content, body, w, w', value, hname, hw, hw', hcontent⟩ := hfield
      have hends := hrest.ends rest
      have hlen : tail.length < fuel := by
        simp only [List.length_append, List.length_cons] at hfuel
        omega
      have hstring := readString_of_spells hname
        (w ++ 0x3A :: (w' ++ (value ++ (tail ++ 0x7D :: rest))))
      have hcolon := skipColon_append (w' ++ (value ++ (tail ++ 0x7D :: rest))) hw
      simp only [List.append_assoc, List.cons_append]
      rw [readMembers, nextMember_field _ hlead]
      simp only [hstring]
      cases htakes with
      | known hfind hread htakes =>
          simp only [hfind, hread.unset, Bool.false_eq_true, if_false, hcolon, bind, Except.bind,
            hread.read _ _ _ hw' hcontent hends]
          exact ih htakes fuel hlen
      | unknown hfind htakes =>
          obtain _ | hvalue := hcontent
          simp only [hfind, hcolon, bind, Except.bind, skipValue_append hvalue hw' hends]
          exact ih htakes fuel hlen

/-- Whatever spells an object, a record is read from its fields. -/
theorem readRecord_of_spells {expected : String} {fields : List Field} {w bytes : Bytes}
    {empty draft : σ} (rest : Bytes) (hw : Blanks w) (h : SpellsFields true fields bytes)
    (htakes : Takes members empty fields draft) (hcomplete : ∀ m ∈ members, m.isSet draft = true) :
    readRecord expected members empty (w ++ 0x7B :: (bytes ++ 0x7D :: rest)) =
      .ok (draft, rest) := by
  have hread := readMembers_of_spells h htakes ((bytes ++ 0x7D :: rest).length + 1) rest
    (by rw [List.length_append]; omega)
  have hmissing : members.find? (fun m => m.required && !m.isSet draft) = none := by
    rw [List.find?_eq_none]
    intro m hm
    simp [hcomplete m hm]
  have hclose : closeObject (0x7D :: rest) = .ok rest := rfl
  rw [readRecord, skipBlanks_token _ hw (by decide)]
  simp only [if_true, checkComplete, hread, bind, Except.bind, hmissing, pure, Except.pure,
    enclosed, hclose, Except.map]
  rfl

end ProductCatalog.Json
