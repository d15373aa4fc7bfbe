import Mathlib.Data.List.Forall2
import ProductCatalog.Json.Printer
import ProductCatalog.Proofs.Json.Members

/-!
# What is written is a spelling

The grammar knows many spellings of a text and of an object.  What the
printer writes is one of them: each character as itself or in one of its
escapes, and the members of an object in their order, without blanks.

## Main definitions

* `Writes` — a member is written as a field.

## Main results

* `encode_writeText` — a written string spells its text.
* `encode_writeObject` — a written object spells the fields of its members.
-/

namespace ProductCatalog.Json

open Text

theorem encode_append (a b : String) : Text.encode (a ++ b) = Text.encode a ++ Text.encode b := by
  rw [Text.encode, String.toList_append, List.flatMap_append]
  rfl

/-- A character is spelled by what is written for it. -/
theorem spellsChar_escapeChar (c : Char) :
    SpellsChar c ((escapeChar c).flatMap String.utf8EncodeChar) := by
  unfold escapeChar
  split
  case h_8 hquote hback _ _ _ _ _ =>
    by_cases hcontrol : c.toNat < 0x20
    · rw [if_pos hcontrol]
      have hspells : ∀ n : Fin 32,
          AnyCase (hexPadded 4 n.val) ['0', '0', hexChar (n.val / 16), hexChar (n.val % 16)] ∧
            ['\\', 'u', '0', '0', hexChar (n.val / 16), hexChar (n.val % 16)].flatMap
                String.utf8EncodeChar =
              0x5C :: 0x75 ::
                asciiBytes ['0', '0', hexChar (n.val / 16), hexChar (n.val % 16)] := by
        decide
      obtain ⟨hcase, hbytes⟩ := hspells ⟨c.toNat, hcontrol⟩
      rw [hbytes]
      exact .numeric (by omega) ⟨_, hcase, rfl⟩
    · rw [if_neg hcontrol, List.flatMap_singleton]
      exact .itself (by omega) hquote hback
  all_goals exact .letter (by decide)

theorem spellsChars_escapeChar (cs : List Char) :
    SpellsChars cs ((cs.flatMap escapeChar).flatMap String.utf8EncodeChar) := by
  induction cs with
  | nil => exact .nil
  | cons c cs ih =>
      rw [List.flatMap_cons, List.flatMap_append]
      exact .cons (spellsChar_escapeChar c) ih

/-- The string written for a text spells it between its quotes. -/
theorem encode_writeText (s : String) :
    ∃ body, Text.encode (writeText s) = 0x22 :: (body ++ [0x22]) ∧ SpellsText s body := by
  refine ⟨_, ?_, spellsChars_escapeChar s.toList⟩
  have hquote : String.utf8EncodeChar '"' = [0x22] := by decide
  rw [Text.encode, writeText, String.toList_ofList, List.flatMap_cons, List.flatMap_append,
    List.flatMap_singleton, hquote]
  rfl

/-- Every text has a spelling. -/
theorem exists_spellsText (s : String) : ∃ body, SpellsText s body :=
  (encode_writeText s).imp fun _ h => h.2

theorem spellsContent_writeText (s : String) :
    SpellsContent (.text s) (Text.encode (writeText s)) := by
  obtain ⟨body, hbody, hspells⟩ := encode_writeText s
  rw [hbody]
  exact .text hspells

/-- A member is written as a field that holds what its value spells. -/
def Writes (member : String × String) (field : Field) : Prop :=
  member.1 = field.1 ∧ SpellsContent field.2 (Text.encode member.2)

theorem Writes.text (name s : String) : Writes (name, writeText s) (name, .text s) :=
  ⟨rfl, spellsContent_writeText s⟩

theorem Writes.spells {member : String × String} {field : Field} (h : Writes member field) :
    SpellsField field (Text.encode (writeText member.1 ++ ":" ++ member.2)) := by
  obtain ⟨name, value⟩ := member
  obtain ⟨name', content⟩ := field
  obtain ⟨hname, hcontent⟩ := h
  obtain rfl : name = name' := hname
  obtain ⟨body, hbody, hspells⟩ := encode_writeText name
  have hcolon : Text.encode ":" = [0x3A] := by decide
  have hfield := SpellsField.mk hspells .nil .nil hcontent
  rw [encode_append, encode_append, hbody, hcolon]
  simpa using hfield

/-- Members behind a first one, each written after a comma, spell their fields. -/
private theorem spellsFields_rest (first : String × String) {members : List (String × String)}
    {fields : List Field} (h : List.Forall₂ Writes members fields) :
    ∃ rest, SpellsFields false fields rest ∧
      Text.encode (",".intercalate ((first :: members).map fun m => writeText m.1 ++ ":" ++ m.2)) =
        Text.encode (writeText first.1 ++ ":" ++ first.2) ++ rest := by
  induction h generalizing first with
  | nil => exact ⟨[], .nil .nil, by simp⟩
  | @cons next _ members _ hnext _ ih =>
      obtain ⟨rest, hspells, hbytes⟩ := ih next
      have hcomma : Text.encode "," = [0x2C] := by decide
      refine ⟨_, .cons (.next .nil .nil) hnext.spells hspells, ?_⟩
      rw [List.map_cons] at hbytes
      rw [List.map_cons, List.map_cons, String.intercalate_cons_cons, encode_append,
        encode_append, hbytes, hcomma]
      simp

/-- Members that are written between commas spell their fields. -/
theorem spellsFields_intercalate {members : List (String × String)} {fields : List Field}
    (h : List.Forall₂ Writes members fields) :
    SpellsFields true fields
      (Text.encode (",".intercalate (members.map fun m => writeText m.1 ++ ":" ++ m.2))) := by
  cases h with
  | nil => exact .nil .nil
  | @cons first _ _ _ hfirst hrest =>
      obtain ⟨rest, hspells, hbytes⟩ := spellsFields_rest first hrest
      have hall := SpellsFields.cons (.first .nil) hfirst.spells hspells
      rwa [List.nil_append, ← hbytes] at hall

/-- The object written for members spells their fields between its braces. -/
theorem encode_writeObject {members : List (String × String)} {fields : List Field}
    (h : List.Forall₂ Writes members fields) :
    ∃ bytes, Text.encode (writeObject members) = 0x7B :: (bytes ++ [0x7D]) ∧
      SpellsFields true fields bytes := by
  refine ⟨_, ?_, spellsFields_intercalate h⟩
  have hopen : Text.encode "\x7b" = [0x7B] := by decide
  have hclose : Text.encode "\x7d" = [0x7D] := by decide
  rw [writeObject, encode_append, encode_append, hopen, hclose]
  rfl

end ProductCatalog.Json
