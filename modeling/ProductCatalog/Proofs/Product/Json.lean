import ProductCatalog.Product.Json
import ProductCatalog.Proofs.Json.Written
import ProductCatalog.Proofs.Number.Notation
import ProductCatalog.Proofs.Product.Id

/-!
# What the JSON of a product tells

A JSON string ends at its closing quote, whatever follows: its characters
are escaped in such a way that each can be told from what stands behind it.
An object whose first value is a string can therefore be taken apart, member
by member, as long as the values are strings.

## Main definitions

* `Product.fields` — the fields of a product's JSON.

## Main results

* `writeText_append_inj` — a written string ends at its quote.
* `writeObject_cons_inj` — the first member of an object, and the others.
* `Product.json_inj` — id and texts of a product are those in its JSON.
* `Product.spells_json` — the JSON of a product spells its fields.
-/

namespace ProductCatalog.Json

open Text

/-! ## Characters -/

/-- Characters that are escaped by a letter, behind their letters. -/
def escapeLetters : List (Char × Char) :=
  [('"', '"'), ('\\', '\\'), ('b', '\x08'), ('f', '\x0C'), ('n', '\n'), ('r', '\r'), ('t', '\t')]

/-- Takes the first character of an escaped text. -/
def unescape? : List Char → Option (Char × List Char)
  | '\\' :: 'u' :: a :: b :: c :: d :: rest =>
    (hexFrom? 0 [a, b, c, d]).map fun n => (Char.ofNat n, rest)
  | '\\' :: letter :: rest => (escapeLetters.lookup letter).map fun c => (c, rest)
  | c :: rest => some (c, rest)
  | [] => none

/-- An escaped character is taken back, whatever follows. -/
theorem unescape?_escapeChar (c : Char) (rest : List Char) :
    unescape? (escapeChar c ++ rest) = some (c, rest) := by
  unfold escapeChar
  split
  case h_8 hback _ _ _ _ _ =>
    by_cases hcontrol : c.toNat < 0x20
    · have hdigits : ∀ n : Fin 32,
          hexFrom? 0 ['0', '0', hexChar (n.val / 16), hexChar (n.val % 16)] = some n.val := by
        decide
      rw [if_pos hcontrol]
      simp only [List.cons_append, List.nil_append, unescape?, hdigits ⟨c.toNat, hcontrol⟩,
        Option.map_some, Char.ofNat_toNat]
    · rw [if_neg hcontrol, List.cons_append, List.nil_append, unescape?]
      · exact fun _ _ _ _ _ hc _ => hback hc
      · exact fun _ _ hc _ => hback hc
  all_goals rfl

/-- No escaped character begins like a closing quote. -/
theorem escapeChar_ne_quote (c : Char) (rest tail : List Char) :
    escapeChar c ++ rest ≠ '"' :: tail := by
  intro heq
  have htaken := unescape?_escapeChar c rest
  rw [heq] at htaken
  have hquote : c = '"' := by
    have hfirst : unescape? ('"' :: tail) = some ('"', tail) := rfl
    rw [hfirst] at htaken
    exact (Prod.mk.inj (Option.some.inj htaken)).1.symm
  subst hquote
  cases heq

/-! ## Strings -/

/-- Two escaped texts that are continued alike behind their closing quotes are one. -/
theorem escaped_append_inj {xs ys tail tail' : List Char}
    (h : xs.flatMap escapeChar ++ '"' :: tail = ys.flatMap escapeChar ++ '"' :: tail') :
    xs = ys ∧ tail = tail' := by
  induction xs generalizing ys with
  | nil =>
      cases ys with
      | nil => exact ⟨rfl, (List.cons.inj h).2⟩
      | cons y ys =>
          rw [List.flatMap_cons, List.append_assoc] at h
          exact absurd h.symm (escapeChar_ne_quote y _ _)
  | cons x xs ih =>
      cases ys with
      | nil =>
          rw [List.flatMap_cons, List.append_assoc] at h
          exact absurd h (escapeChar_ne_quote x _ _)
      | cons y ys =>
          rw [List.flatMap_cons, List.flatMap_cons, List.append_assoc, List.append_assoc] at h
          have htaken := congrArg unescape? h
          rw [unescape?_escapeChar, unescape?_escapeChar] at htaken
          obtain ⟨rfl, hrest⟩ := Prod.mk.inj (Option.some.inj htaken)
          obtain ⟨rfl, htail⟩ := ih hrest
          exact ⟨rfl, htail⟩

/-- A written string ends at its closing quote, whatever follows. -/
theorem writeText_append_inj {a b tail tail' : String}
    (h : writeText a ++ tail = writeText b ++ tail') : a = b ∧ tail = tail' := by
  have hchars := congrArg String.toList h
  simp only [writeText, String.toList_append, String.toList_ofList, List.cons_append,
    List.append_assoc, List.nil_append] at hchars
  obtain ⟨htext, htail⟩ := escaped_append_inj (List.cons.inj hchars).2
  exact ⟨String.toList_inj.1 htext, String.toList_inj.1 htail⟩

/-! ## Objects -/

/-- An object that begins with a string tells this string, and what follows. -/
theorem writeObject_cons_inj {name a b : String} {m m' : String × String}
    {rest rest' : List (String × String)}
    (h : writeObject ((name, writeText a) :: m :: rest) =
      writeObject ((name, writeText b) :: m' :: rest')) :
    a = b ∧ writeObject (m :: rest) = writeObject (m' :: rest') := by
  -- the other members are written behind a comma as they would be behind the opening brace
  have hsplit : ∀ (v : String) (m : String × String) (rest : List (String × String)),
      ∃ tail, writeObject (m :: rest) = "\x7b" ++ tail ∧
        writeObject ((name, writeText v) :: m :: rest) =
          ("\x7b" ++ (writeText name ++ ":")) ++ (writeText v ++ ("," ++ tail)) := by
    intro v m rest
    refine ⟨_, String.append_assoc .., ?_⟩
    rw [writeObject, List.map_cons, List.map_cons, String.intercalate_cons_cons]
    simp only [String.append_assoc]
  obtain ⟨tail, hmembers, hobject⟩ := hsplit a m rest
  obtain ⟨tail', hmembers', hobject'⟩ := hsplit b m' rest'
  rw [hobject, hobject', String.append_right_inj] at h
  obtain ⟨hvalue, htail⟩ := writeText_append_inj h
  rw [String.append_right_inj] at htail
  exact ⟨hvalue, by rw [hmembers, hmembers', htail]⟩

end ProductCatalog.Json

namespace ProductCatalog

open Json

theorem ProductId.text_inj {a b : ProductId} (h : a.text = b.text) : a = b := by
  have hread := parse?_text a
  rw [h, parse?_text] at hread
  exact (Option.some.inj hread).symm

/-- The JSON of a product tells its id, its name, its vendor and its description. -/
theorem Product.json_inj {p q : Product} (h : p.json = q.json) :
    p.id = q.id ∧ p.name = q.name ∧ p.vendor = q.vendor ∧ p.description = q.description := by
  obtain ⟨hid, hname⟩ := writeObject_cons_inj h
  obtain ⟨hname, hvendor⟩ := writeObject_cons_inj hname
  obtain ⟨hvendor, hdescription⟩ := writeObject_cons_inj hvendor
  obtain ⟨hdescription, -⟩ := writeObject_cons_inj hdescription
  exact ⟨ProductId.text_inj hid, hname, hvendor, hdescription⟩

/-- The fields of a product's JSON, all but the price with their texts. -/
def Product.fields (p : Product) : List Field :=
  [("id", .text p.id.text), ("name", .text p.name), ("vendor", .text p.vendor),
    ("description", .text p.description), ("price", .any), ("created_at", .text p.createdAt.text),
    ("updated_at", .text p.updatedAt.text)]

/-- The JSON of a product spells its fields. -/
theorem Product.spells_json (p : Product) :
    ∃ bytes, Text.encode p.json = 0x7B :: (bytes ++ [0x7D]) ∧ SpellsFields true p.fields bytes := by
  have hprice : Writes ("price", p.price.json) ("price", .any) :=
    ⟨rfl, .any (Binary64.Shortest.wellFormed_json _)⟩
  exact encode_writeObject (.cons (.text _ _) (.cons (.text _ _) (.cons (.text _ _)
    (.cons (.text _ _) (.cons hprice (.cons (.text _ _) (.cons (.text _ _) .nil)))))))

end ProductCatalog
