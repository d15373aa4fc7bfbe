import ProductCatalog.Http.Products
import ProductCatalog.Proofs.Event.Classification
import ProductCatalog.Proofs.Product.Grammar
import ProductCatalog.Proofs.Product.Order

/-!
# All entrances agree on ids

The text of an id comes in as a part of a path, as a string of an envelope, or
as a JSON string of its own.  All of these are read by the same grammar: they
give the same id, or each of them refuses the text in its own way.  No text
is kept from any of them, since there is a JSON spelling of each text, and
all of its bytes may be escaped in a path.

## Main definitions

* `ProductId.Entrances` — what all entrances make of a text.
* `percentEncode` — the text with all of its bytes escaped.

## Main results

* `ProductId.entrances_parse?` — all entrances go by the reading of the text.
* `percentText_percentEncode`, `Envelope.exists_spells` — every text comes in.
* `ProductId.entrances_agree` — what is accepted, as which id, in which order.
-/

namespace ProductCatalog

open Json Text Http

/-! ## Every text comes in -/

namespace Text

/-- A text with all of its bytes escaped. -/
def percentEncode (text : String) : List Char :=
  (encode text).flatMap fun b => '%' :: hexPadded 2 b.toNat

/-- An escaped byte is taken back, whatever follows. -/
theorem percentDecode_escape (b : UInt8) (rest : Bytes) :
    percentDecode (asciiBytes ('%' :: hexPadded 2 b.toNat) ++ rest) = b :: percentDecode rest := by
  have hb : b.toNat < 256 := b.toNat_lt
  have hdigit : ∀ d, d < 16 →
      hexValue? (Char.ofNat (UInt8.ofNat (hexChar d).toNat).toNat) = some d := by
    intro d hd
    have hread := hexValue?_hexChar hd
    rw [toNat_asciiByte (toNat_lt_of_hexValue? hread), Char.ofNat_toNat, hread]
  have hhigh := hdigit (b.toNat / 16 % 16) (by omega)
  have hlow := hdigit (b.toNat % 16) (by omega)
  have hvalue : b.toNat / 16 % 16 * 16 + b.toNat % 16 = b.toNat := by omega
  show percentDecode (0x25 :: UInt8.ofNat (hexChar (b.toNat / 16 % 16)).toNat ::
    UInt8.ofNat (hexChar (b.toNat % 16)).toNat :: rest) = b :: percentDecode rest
  rw [percentDecode, hhigh, hlow]
  simp only [hvalue, UInt8.ofNat_toNat]

/-- The escaped text stands for the text. -/
theorem percentText_percentEncode (text : String) :
    percentText (percentEncode text) = .ok text := by
  have hascii : ∀ c ∈ percentEncode text, c.toNat < 0x7F := by
    intro c hc
    obtain ⟨b, -, hc⟩ := List.mem_flatMap.1 hc
    rcases List.mem_cons.1 hc with rfl | hc
    · decide
    · obtain ⟨d, hd, rfl⟩ := ProductId.mem_hexPadded hc
      exact toNat_lt_of_hexValue? (hexValue?_hexChar hd)
  have hdecode : ∀ bytes : Bytes,
      percentDecode (asciiBytes (bytes.flatMap fun b => '%' :: hexPadded 2 b.toNat)) = bytes := by
    intro bytes
    induction bytes with
    | nil => rfl
    | cons b bytes ih =>
        rw [List.flatMap_cons, asciiBytes, List.map_append]
        exact (percentDecode_escape b _).trans (congrArg _ ih)
  rw [percentText, encode_ascii _ hascii, percentEncode, hdecode, decode_encode]

end Text

/-- Every text stands as the id of some envelope. -/
theorem Envelope.exists_spells (eventType productId : String) :
    ∃ body, Envelope.Spells eventType productId body := by
  obtain ⟨kind, hkind⟩ := exists_spellsText eventType
  obtain ⟨id, hid⟩ := exists_spellsText productId
  exact ⟨_, .array .nil (.cons (.first .nil) (.text hkind)
    (.cons (.next .nil .nil) (.text hid) .nil)) .nil .nil⟩

namespace ProductId

/-! ## The entrances -/

/-- What all entrances make of a text: an id, or a refusal. -/
structure Entrances (text : String) (answer : Option ProductId) : Prop where
  /-- The text as it stands. -/
  parsed : parse text = answer.elim (.error (diagnose text)) .ok
  /-- The text as the part of a path that names the product to delete. -/
  named : ∀ {limit : Nat} {r : Http.Request} {name : List Char}, r.method = "DELETE" →
    Products.Route.ofPath? r.path = some (.product name) → percentText name = .ok text →
    r.declaredLength?.getD 0 ≤ limit →
    Products.demand limit r = answer.elim (.refused .invalidProductId) .delete
  /-- The text in an envelope whose kind is known. -/
  enclosed : ∀ {kind : EventKind} {body : Bytes}, Envelope.Spells kind.wireName text body →
    decode body = answer.elim (.error (.badProductId (diagnose text))) fun id => .ok ⟨kind, id⟩
  /-- The text as a JSON string. -/
  quoted : ∀ {w bytes w' : Bytes}, Blanks w → SpellsText text bytes → Blanks w' →
    wholeText ProductId.read (w ++ 0x22 :: (bytes ++ 0x22 :: w')) =
      answer.elim (failAt (.refused ("UUID parsing failed: " ++ (diagnose text).message)) w') .ok

theorem parse_eq_elim (text : String) :
    parse text = (parse? text).elim (.error (diagnose text)) .ok := by
  rw [parse]
  cases parse? text <;> rfl

/-- A path that names a product is a demand to delete it, or refused. -/
theorem demand_of_named {text : String} {limit : Nat} {r : Http.Request} {name : List Char}
    (hmethod : r.method = "DELETE")
    (hroute : Products.Route.ofPath? r.path = some (.product name))
    (hname : percentText name = .ok text) (hlength : r.declaredLength?.getD 0 ≤ limit) :
    Products.demand limit r = (parse? text).elim (.refused .invalidProductId) .delete := by
  have hhead : "DELETE" ≠ "HEAD" := by decide
  rw [Products.demand, if_neg (Nat.not_lt.2 hlength), hroute, hmethod]
  simp only [if_neg hhead, Products.dispatch, if_true, Option.getD_some, Products.deletion, hname]
  cases parse? text <;> rfl

/-- A JSON string is read as the id that its text is, or refused where it ends. -/
theorem read_of_quoted {text : String} {w bytes w' : Bytes} (hw : Blanks w)
    (hbytes : SpellsText text bytes) (hw' : Blanks w') :
    wholeText ProductId.read (w ++ 0x22 :: (bytes ++ 0x22 :: w')) =
      (parse? text).elim
        (failAt (.refused ("UUID parsing failed: " ++ (diagnose text).message)) w') .ok := by
  rw [wholeText, ProductId.read, readTextAs, skipBlanks_token _ hw (by decide)]
  simp only [if_true, readString_of_spells hbytes, parse_eq_elim, bind, Except.bind]
  cases parse? text with
  | none => rfl
  | some id =>
      simp only [Option.elim_some, pure, Except.pure, hw'.skipped]

/-- All entrances go by the reading of the text. -/
theorem entrances_parse? (text : String) : Entrances text (parse? text) where
  parsed := parse_eq_elim text
  named := demand_of_named
  enclosed {kind _} h := by
    rw [decode_of_envelope h, Envelope.event, EventKind.ofWireName?_wireName, parse_eq_elim]
    cases parse? text <;> rfl
  quoted := read_of_quoted

/--
**All entrances agree on ids.** Each text is refused by all of them or read as
one id by all of them, and it comes in through each.  It is accepted if and
only if it is one of the grammar, and is then the id whose number its digits
spell.  The canonical text of each id is accepted as that id.  The order of
ids is that of their numbers, that of their octets, and that of their
canonical texts.
-/
theorem entrances_agree :
    (∀ text : String, ∃ answer, Entrances text answer ∧
      (answer.isSome = true ↔ ∃ digits, Written digits text.toList) ∧
      (∀ id : ProductId, answer = some id ↔
        ∃ digits, Written digits text.toList ∧ hexFrom? 0 digits = some id.value) ∧
      (∃ name, percentText name = .ok text) ∧
      (∀ kind : EventKind, ∃ body, Envelope.Spells kind.wireName text body) ∧
      ∃ bytes, SpellsText text bytes) ∧
    (∀ id : ProductId, Entrances id.text (some id)) ∧
    ∀ a b : ProductId, (a.le b = true ↔ a.value ≤ b.value) ∧
      (a.le b = true ↔ ¬ List.Lex (· < ·) b.octets a.octets) ∧
      (a.le b = true ↔ a.text ≤ b.text) := by
  refine ⟨fun text => ⟨parse? text, entrances_parse? text, parse?_isSome_iff,
    fun _ => parse?_eq_some_iff_written, ⟨_, percentText_percentEncode text⟩,
    fun kind => Envelope.exists_spells kind.wireName text, exists_spellsText text⟩,
    fun id => ?_, fun a b => ⟨le_iff, le_iff_octets, le_iff_text_le⟩⟩
  have hanswer := entrances_parse? id.text
  rwa [parse?_text] at hanswer

/-- The id 10 in braces: with escaped braces in a path, in an array, and with an escaped brace in a
JSON string. -/
theorem entrances_agree_of_braces :
    let r : Http.Request := {
      method := "DELETE"
      target := "/products-api/v1/products/%7B00000000-0000-0000-0000-00000000000A%7d" }
    let text := "\x7b00000000-0000-0000-0000-00000000000A\x7d"
    let body := asciiBytes ("[\"delete_product\",\"" ++ text ++ "\"]").toList
    let string := asciiBytes " \"\\u007B00000000-0000-0000-0000-00000000000A\x7d\"\n".toList
    Products.demand 1000 r = .delete (ofNat 10) ∧
      decode body = .ok ⟨.deleted, ofNat 10⟩ ∧
      wholeText ProductId.read string = .ok (ofNat 10) := by
  intro r text body string
  have hplain : ∀ s : String, s.toList.all isPlain = true → SpellsText s (asciiBytes s.toList) :=
    fun s h => spellsText_plain s (List.all_eq_true.1 h)
  have hdigits := @Hyphenated.mk (List.replicate 8 '0') (List.replicate 4 '0')
    (List.replicate 4 '0') (List.replicate 4 '0') (List.replicate 11 '0' ++ ['A'])
    (by decide) (by decide) (by decide) (by decide) (by decide)
  have hwritten : Written (List.replicate 31 '0' ++ ['A']) text.toList :=
    (congrArg (Written _) (by decide +kernel)).mp (Written.braced hdigits)
  obtain ⟨answer, hanswer, -, haccepted, -⟩ := entrances_agree.1 text
  obtain rfl : answer = some (ofNat 10) :=
    (haccepted (ofNat 10)).2 ⟨_, hwritten, by decide +kernel⟩
  have hbody : Envelope.Spells EventKind.deleted.wireName text body := by
    have hkind := hplain "delete_product" (by decide +kernel)
    have h := Envelope.Spells.array .nil (.cons (.first .nil) (.text hkind)
      (.cons (.next .nil .nil) (.text (hplain text (by decide +kernel))) .nil)) .nil .nil
    exact (congrArg _ (by decide +kernel : _ = body)).mp h
  have hbrace : SpellsChar '\x7b' (0x5C :: 0x75 :: asciiBytes "007B".toList) :=
    .numeric (by decide) ⟨_, by decide, rfl⟩
  have hchars := SpellsChars.cons hbrace
    (hplain "00000000-0000-0000-0000-00000000000A\x7d" (by decide +kernel))
  have hstring : SpellsText text _ :=
    (congrArg (SpellsChars · _) (by decide +kernel : _ = text.toList)).mp hchars
  have hroute : Products.Route.ofPath? r.path =
      some (.product "%7B00000000-0000-0000-0000-00000000000A%7d".toList) := by
    decide +kernel
  refine ⟨hanswer.named rfl hroute (by decide +kernel) (by decide +kernel),
    hanswer.enclosed hbody, ?_⟩
  have hfront : Blanks [0x20] := by decide +kernel
  have hback : Blanks [0x0A] := by decide +kernel
  have hread := hanswer.quoted hfront hstring hback
  exact (congrArg (wholeText ProductId.read) (by decide +kernel)).trans hread

end ProductId

end ProductCatalog
