import ProductCatalog.Product.Id

/-!
# The canonical text of a product id

The canonical text consists of thirty-two digits of the id's number, cut
into five groups.  Cutting and joining are inverse to one another, and the
digits spell the number, so the text is read back as the id.

## Main results

* `ungrouped?_grouped` — joining undoes cutting.
* `parse?_text` — the canonical text is read as its id.
* `mem_chars` — it has only hexadecimal digits and hyphens.
-/

namespace ProductCatalog.ProductId

open Text

theorem length_hexPadded (width n : Nat) : (hexPadded width n).length = width := by
  induction width generalizing n with
  | zero => rfl
  | succ width ih =>
      rw [hexPadded, List.length_append, ih]
      rfl

/-- Every digit written is the digit of some number below sixteen. -/
theorem mem_hexPadded {width n : Nat} {c : Char} (h : c ∈ hexPadded width n) :
    ∃ d, d < 16 ∧ c = hexChar d := by
  induction width generalizing n with
  | zero => cases h
  | succ width ih =>
      rw [hexPadded, List.mem_append, List.mem_singleton] at h
      rcases h with h | rfl
      · exact ih h
      · exact ⟨n % 16, Nat.mod_lt n (by decide), rfl⟩

/-! ## Groups -/

/-- Joining groups gives back the digits that were cut. -/
theorem ungrouped?_grouped (ns : List Nat) (hns : ns ≠ []) (cs : List Char)
    (hlen : cs.length = ns.foldr (· + ·) 0) :
    ungrouped? ns (grouped ns cs) = some cs := by
  induction ns generalizing cs with
  | nil => exact absurd rfl hns
  | cons n ns ih =>
      cases ns with
      | nil =>
          have hn : cs.length = n := by simpa using hlen
          rw [grouped, ungrouped?, if_pos hn]
      | cons m ns =>
          have hn : (cs.take n).length = n := by
            rw [List.length_take]
            simp only [List.foldr_cons] at hlen
            omega
          have hdrop : (cs.drop n).length = (m :: ns).foldr (· + ·) 0 := by
            rw [List.length_drop, hlen, List.foldr_cons]
            omega
          rw [grouped, ungrouped?, List.drop_append_of_le_length (by omega),
            List.drop_of_length_le (by omega), List.nil_append]
          · simp only
            rw [ih (by simp) _ hdrop, Option.map_some, List.take_append_of_le_length (by omega),
              List.take_of_length_le (by omega), List.take_append_drop]
          · simp
          · simp

/-- Cutting into groups puts one hyphen between each two of them. -/
theorem length_grouped (ns : List Nat) (cs : List Char)
    (hlen : cs.length = ns.foldr (· + ·) 0) :
    (grouped ns cs).length = cs.length + (ns.length - 1) := by
  induction ns generalizing cs with
  | nil =>
      have hcs : cs = [] := List.length_eq_zero_iff.1 hlen
      subst hcs
      rfl
  | cons n ns ih =>
      cases ns with
      | nil => rfl
      | cons m ns =>
          have hdrop : (cs.drop n).length = (m :: ns).foldr (· + ·) 0 := by
            rw [List.length_drop, hlen, List.foldr_cons]
            omega
          have hn : n ≤ cs.length := by
            rw [hlen, List.foldr_cons]
            omega
          rw [grouped, List.length_append, List.length_cons, ih _ hdrop, List.length_take,
            List.length_drop]
          simp only [List.length_cons]
          · omega
          · simp

/-- Groups hold nothing but what was cut and hyphens. -/
theorem mem_grouped {ns : List Nat} {cs : List Char} {c : Char} (h : c ∈ grouped ns cs) :
    c = '-' ∨ c ∈ cs := by
  induction ns generalizing cs with
  | nil => cases h
  | cons n ns ih =>
      cases ns with
      | nil => exact .inr h
      | cons m ns =>
          rw [grouped, List.mem_append, List.mem_cons] at h
          · rcases h with h | h | h
            · exact .inr (List.mem_of_mem_take h)
            · exact .inl h
            · exact (ih h).imp_right List.mem_of_mem_drop
          · simp

/-! ## The canonical text -/

/-- The characters of a canonical text are hyphens and lower-case digits. -/
theorem mem_chars {id : ProductId} {c : Char} (h : c ∈ id.chars) :
    c = '-' ∨ ∃ d, d < 16 ∧ c = hexChar d :=
  (mem_grouped h).imp_right mem_hexPadded

theorem parseSimple?_digits (id : ProductId) :
    parseSimple? (hexPadded 32 id.value) = some id := by
  have hread : hexFrom? 0 (hexPadded 32 id.value) = some id.value := by
    have hsmall : id.value < 16 ^ 32 := id.value_lt
    rw [hexFrom?_hexPadded, Nat.zero_mul, Nat.zero_add, Nat.mod_eq_of_lt hsmall]
  unfold parseSimple?
  rw [if_pos (length_hexPadded 32 id.value), hread]
  exact dif_pos id.value_lt

theorem parseHyphenated?_chars (id : ProductId) : parseHyphenated? id.chars = some id := by
  have hjoin : ungrouped? groups id.chars = some (hexPadded 32 id.value) :=
    ungrouped?_grouped groups (by decide) _ (length_hexPadded 32 id.value)
  rw [parseHyphenated?, hjoin, Option.bind_some, parseSimple?_digits]

/-- The canonical text is read as its id. -/
theorem parse?_text (id : ProductId) : parse? id.text = some id := by
  have hlen : id.chars.length = 36 := by
    rw [chars, length_grouped groups _ (length_hexPadded 32 id.value), length_hexPadded]
    rfl
  have hsimple : parseSimple? id.chars = none := by
    rw [parseSimple?, if_neg (by omega)]
  rw [parse?, text, String.toList_ofList, parseChars?, hsimple, parseHyphenated?_chars]

end ProductCatalog.ProductId
