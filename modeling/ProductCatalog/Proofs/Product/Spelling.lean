import ProductCatalog.Proofs.Product.Id

/-!
# All spellings of a product id

An id may be spelled as its digits without hyphens, as its canonical text,
as this text in braces, or as this text after `urn:uuid:`, each with letters
in either case.  Case does not matter to the reader, and the four lengths
and the first characters tell the spellings apart, so that each of them is
read as its id.

## Main definitions

* `ProductId.Spells` — the texts that spell an id.

## Main results

* `ProductId.parse?_of_spells` — every spelling is read as its id.
* `ProductId.parse?_eq_some_iff` — and nothing else is.
* `ProductId.spells_text` — the canonical text is one.
-/

namespace ProductCatalog.ProductId

open Text

/-- The texts that spell an id. -/
inductive Spells (id : ProductId) : List Char → Prop
  | simple {cs : List Char} (h : AnyCase (hexPadded 32 id.value) cs) : Spells id cs
  | hyphenated {cs : List Char} (h : AnyCase id.chars cs) : Spells id cs
  | braced {cs : List Char} (h : AnyCase id.chars cs) : Spells id ('\x7b' :: (cs ++ ['\x7d']))
  | named {mark cs : List Char} (hmark : AnyCase urnPrefix mark) (h : AnyCase id.chars cs) :
      Spells id (mark ++ cs)

/-! ## Case -/

theorem parseSimple?_of_anyCase {id : ProductId} {cs : List Char}
    (h : AnyCase (hexPadded 32 id.value) cs) : parseSimple? cs = some id := by
  rw [← parseSimple?_digits id, parseSimple?, parseSimple?, h.length_eq, h.hexFrom?_eq]

/-- Only the hyphen becomes a hyphen in lower case. -/
theorem toLower_eq_hyphen {c : Char} : c.toLower = '-' ↔ c = '-' := by
  have hascii : ∀ n : Fin 0x80,
      (Char.ofNat n.val).toLower = '-' ↔ Char.ofNat n.val = '-' := by decide
  by_cases h : c.toNat < 0x80
  · simpa only [Char.ofNat_toNat] using hascii ⟨c.toNat, h⟩
  · rw [toLower_of_le (by omega)]

/-- What a hyphen separates from the first group, if it does. -/
theorem ungrouped?_cons (n m : Nat) (ns : List Nat) (cs : List Char) :
    ungrouped? (n :: m :: ns) cs =
      match cs.drop n with
      | '-' :: rest => (ungrouped? (m :: ns) rest).map (cs.take n ++ ·)
      | _ => none :=
  rfl

theorem grouped_cons (n m : Nat) (ns : List Nat) (cs : List Char) :
    grouped (n :: m :: ns) cs = cs.take n ++ '-' :: grouped (m :: ns) (cs.drop n) :=
  rfl

/-- Groups are joined in any case. -/
theorem ungrouped?_toLower (ns : List Nat) (cs : List Char) :
    ungrouped? ns (cs.map Char.toLower) = (ungrouped? ns cs).map (·.map Char.toLower) := by
  induction ns generalizing cs with
  | nil => rfl
  | cons n ns ih =>
      cases ns with
      | nil =>
          simp only [ungrouped?, List.length_map]
          split <;> rfl
      | cons m ns =>
          rw [ungrouped?_cons, ungrouped?_cons, ← List.map_drop, ← List.map_take]
          cases cs.drop n with
          | nil => rfl
          | cons c rest =>
              by_cases hc : c = '-'
              · subst hc
                have hlower : ('-').toLower = '-' := by decide
                simp only [List.map_cons, hlower, ih, Option.map_map]
                congr 1
                funext ds
                exact List.map_append.symm
              · have hlower : c.toLower ≠ '-' := mt toLower_eq_hyphen.1 hc
                simp [hc, hlower]

/-- A hyphenated text is as long as its groups and the hyphens between them. -/
theorem length_of_ungrouped? {ns : List Nat} {cs ds : List Char} (h : ungrouped? ns cs = some ds) :
    cs.length = ns.foldr (· + ·) 0 + (ns.length - 1) := by
  induction ns generalizing cs ds with
  | nil => cases h
  | cons n ns ih =>
      cases ns with
      | nil =>
          rw [ungrouped?] at h
          split at h
          · next hlen => simpa using hlen
          · cases h
      | cons m ns =>
          rw [ungrouped?_cons] at h
          split at h
          · next rest hdrop =>
              obtain ⟨ds', hrest, -⟩ := Option.map_eq_some_iff.1 h
              have hlen := congrArg List.length hdrop
              have htail := ih hrest
              rw [List.length_drop, List.length_cons] at hlen
              simp only [List.foldr_cons, List.length_cons] at htail ⊢
              omega
          · cases h

theorem parseHyphenated?_of_anyCase {id : ProductId} {cs : List Char} (h : AnyCase id.chars cs) :
    parseHyphenated? cs = some id := by
  have hjoin : (ungrouped? groups cs).map (·.map Char.toLower) = some (hexPadded 32 id.value) := by
    rw [← ungrouped?_toLower, h]
    exact ungrouped?_grouped groups (by decide) _ (length_hexPadded 32 id.value)
  obtain ⟨ds, hds, hcase⟩ := Option.map_eq_some_iff.1 hjoin
  rw [parseHyphenated?, hds, Option.bind_some, parseSimple?_of_anyCase hcase]

/-! ## Telling the spellings apart -/

theorem length_chars (id : ProductId) : id.chars.length = 36 := by
  rw [chars, length_grouped groups _ (length_hexPadded 32 id.value), length_hexPadded]
  rfl

theorem parseSimple?_eq_none {cs : List Char} (h : cs.length ≠ 32) : parseSimple? cs = none := by
  rw [parseSimple?, if_neg h]

theorem parseHyphenated?_eq_none {cs : List Char} (h : cs.length ≠ 36) :
    parseHyphenated? cs = none := by
  have hjoin : ungrouped? groups cs = none := by
    rw [Option.eq_none_iff_forall_ne_some]
    intro ds hds
    exact h (length_of_ungrouped? hds)
  rw [parseHyphenated?, hjoin, Option.bind_none]

theorem unbraced?_braced (cs : List Char) : unbraced? ('\x7b' :: (cs ++ ['\x7d'])) = some cs := by
  simp only [unbraced?, List.getLast?_append, List.getLast?_singleton, Option.some_or, if_true,
    List.dropLast_concat]

/-- The prefix is taken off, and it begins with no brace. -/
theorem afterUrn?_named {mark : List Char} (cs : List Char) (h : AnyCase urnPrefix mark) :
    afterUrn? (mark ++ cs) = some cs ∧ unbraced? (mark ++ cs) = none := by
  have hlen : mark.length = 9 := h.length_eq
  have hlower : mark.map Char.toLower = urnPrefix := h
  constructor
  · rw [afterUrn?, List.take_left' hlen, if_pos hlower, List.drop_left' hlen]
  · match mark, hlen with
    | c :: mark, _ =>
        have hbrace : c ≠ '\x7b' := by
          rintro rfl
          have hhead : ('\x7b').toLower = 'u' := (List.cons.inj hlower).1
          exact absurd hhead (by decide)
        simp [unbraced?, hbrace]

theorem parseChars?_of_spells {id : ProductId} {cs : List Char} (h : id.Spells cs) :
    parseChars? cs = some id := by
  cases h with
  | simple h => rw [parseChars?, parseSimple?_of_anyCase h]
  | hyphenated h =>
      have hlen := h.length_eq.trans id.length_chars
      rw [parseChars?, parseSimple?_eq_none (by omega), parseHyphenated?_of_anyCase h]
  | @braced cs h =>
      have hlen : ('\x7b' :: (cs ++ ['\x7d'])).length = 38 := by
        rw [List.length_cons, List.length_append, h.length_eq, id.length_chars]
        rfl
      rw [parseChars?, parseSimple?_eq_none (by omega), parseHyphenated?_eq_none (by omega),
        unbraced?_braced, Option.some_or]
      exact parseHyphenated?_of_anyCase h
  | @named mark cs hmark h =>
      have hlen : (mark ++ cs).length = 45 := by
        rw [List.length_append, hmark.length_eq, h.length_eq, id.length_chars]
        rfl
      obtain ⟨hafter, hbrace⟩ := afterUrn?_named cs hmark
      rw [parseChars?, parseSimple?_eq_none (by omega), parseHyphenated?_eq_none (by omega),
        hbrace, hafter, Option.none_or]
      exact parseHyphenated?_of_anyCase h

/-- Every spelling is read as its id. -/
theorem parse?_of_spells {id : ProductId} {text : String} (h : id.Spells text.toList) :
    parse? text = some id :=
  parseChars?_of_spells h

/-- The canonical text is in lower case. -/
theorem anyCase_chars (id : ProductId) : AnyCase id.chars id.chars := by
  have hdigit : ∀ d : Fin 16, (hexChar d.val).toLower = hexChar d.val := by decide
  have hlower : ∀ c ∈ id.chars, c.toLower = c := by
    intro c hc
    rcases mem_chars hc with rfl | ⟨d, hd, rfl⟩
    · decide
    · exact hdigit ⟨d, hd⟩
  exact (List.map_congr_left hlower).trans (List.map_id' _)

theorem spells_text (id : ProductId) : id.Spells id.text.toList := by
  rw [text, String.toList_ofList]
  exact .hyphenated id.anyCase_chars

/-! ## What is read is spelled -/

/-- Groups that are joined are those that are cut from what they are joined to. -/
theorem eq_grouped_of_ungrouped? {ns : List Nat} {cs ds : List Char}
    (h : ungrouped? ns cs = some ds) : cs = grouped ns ds := by
  induction ns generalizing cs ds with
  | nil => cases h
  | cons n ns ih =>
      cases ns with
      | nil =>
          rw [ungrouped?] at h
          split at h
          · exact Option.some.inj h
          · cases h
      | cons m ns =>
          rw [ungrouped?_cons] at h
          split at h
          · next rest hdrop =>
              obtain ⟨ds', hrest, rfl⟩ := Option.map_eq_some_iff.1 h
              have hlen : (cs.take n).length = n := by
                have := congrArg List.length hdrop
                rw [List.length_drop, List.length_cons] at this
                rw [List.length_take]
                omega
              rw [grouped_cons, List.take_left' hlen, List.drop_left' hlen, ← ih hrest, ← hdrop,
                List.take_append_drop]
          · cases h

/-- The hyphens between groups are in lower case. -/
theorem map_toLower_grouped (ns : List Nat) (cs : List Char) :
    (grouped ns cs).map Char.toLower = grouped ns (cs.map Char.toLower) := by
  induction ns generalizing cs with
  | nil => rfl
  | cons n ns ih =>
      cases ns with
      | nil => rfl
      | cons m ns =>
          have hlower : ('-').toLower = '-' := by decide
          rw [grouped_cons, grouped_cons, List.map_append, List.map_cons, ih, hlower,
            List.map_take, List.map_drop]

theorem anyCase_of_parseSimple? {id : ProductId} {cs : List Char}
    (h : parseSimple? cs = some id) : AnyCase (hexPadded 32 id.value) cs := by
  rw [parseSimple?] at h
  split at h
  · next hlen =>
      split at h
      · next n hn =>
          split at h
          · obtain rfl := Option.some.inj h
            have hdigits := (anyCase_of_hexFrom? hn).1
            rwa [hlen] at hdigits
          · cases h
      · cases h
  · cases h

theorem anyCase_of_parseHyphenated? {id : ProductId} {cs : List Char}
    (h : parseHyphenated? cs = some id) : AnyCase id.chars cs := by
  obtain ⟨ds, hds, hid⟩ := Option.bind_eq_some_iff.1 h
  have hdigits : ds.map Char.toLower = hexPadded 32 id.value := anyCase_of_parseSimple? hid
  rw [eq_grouped_of_ungrouped? hds, AnyCase, map_toLower_grouped, hdigits, chars]

theorem eq_of_unbraced? {cs inner : List Char} (h : unbraced? cs = some inner) :
    cs = '\x7b' :: (inner ++ ['\x7d']) := by
  unfold unbraced? at h
  split at h
  · next rest =>
      split at h
      · next hlast =>
          obtain ⟨inner', rfl⟩ := List.getLast?_eq_some_iff.1 hlast
          rw [List.dropLast_concat, Option.some.injEq] at h
          rw [h]
      · cases h
  · cases h

theorem eq_of_afterUrn? {cs rest : List Char} (h : afterUrn? cs = some rest) :
    ∃ mark, cs = mark ++ rest ∧ AnyCase urnPrefix mark := by
  rw [afterUrn?] at h
  split at h
  · next hmark =>
      obtain rfl := Option.some.inj h
      exact ⟨cs.take 9, (List.take_append_drop 9 cs).symm, hmark⟩
  · cases h

theorem spells_of_parseChars? {id : ProductId} {cs : List Char} (h : parseChars? cs = some id) :
    id.Spells cs := by
  unfold parseChars? at h
  split at h
  · next hsimple =>
      obtain rfl := Option.some.inj h
      exact .simple (anyCase_of_parseSimple? hsimple)
  split at h
  · next hhyphenated =>
      obtain rfl := Option.some.inj h
      exact .hyphenated (anyCase_of_parseHyphenated? hhyphenated)
  · obtain ⟨inner, hinner, hid⟩ := Option.bind_eq_some_iff.1 h
    have hinner' := anyCase_of_parseHyphenated? hid
    rcases Option.or_eq_some_iff.1 hinner with hbraced | ⟨-, hnamed⟩
    · rw [eq_of_unbraced? hbraced]
      exact .braced hinner'
    · obtain ⟨mark, rfl, hmark⟩ := eq_of_afterUrn? hnamed
      exact .named hmark hinner'

/-- A text is read as an id if and only if it spells it. -/
theorem parse?_eq_some_iff {id : ProductId} {text : String} :
    parse? text = some id ↔ id.Spells text.toList :=
  ⟨spells_of_parseChars?, parse?_of_spells⟩

end ProductCatalog.ProductId
