/-!
# Cutting texts apart

A text is cut at the first place where a separator stands, or what follows
the last place of a character is taken from it. What is cut apart gives the
text again when the separator is put back between the parts.

## Main results

* `append_of_cutFirst?` — the parts and the separator make up the text.
* `cutFirst?_eq_some_iff` — the separator stands nowhere before the cut.
* `lastPart_append` — the last part is what follows the last separator.
-/

namespace ProductCatalog.Text

/-- The parts of a text before and after the first place where a separator stands. -/
def cutFirst? (separator : List Char) : List Char → Option (List Char × List Char)
  | [] => if separator.isEmpty then some ([], []) else none
  | c :: rest =>
    if separator.isPrefixOf (c :: rest) then some ([], (c :: rest).drop separator.length)
    else (cutFirst? separator rest).map fun (before, after) => (c :: before, after)

/-- What follows the last place of a character; the whole text if it stands nowhere. -/
def lastPart (separator : Char) (cs : List Char) : List Char :=
  (cs.reverse.takeWhile (· != separator)).reverse

/-- A text without the occurrences of a character at its end. -/
def dropLastAll (c : Char) (cs : List Char) : List Char := (cs.reverse.dropWhile (· == c)).reverse

/-! ## What is cut apart -/

/-- The parts of a text, put together around the separator, are the text. -/
theorem append_of_cutFirst? {separator cs before after : List Char}
    (h : cutFirst? separator cs = some (before, after)) : before ++ separator ++ after = cs := by
  induction cs generalizing before with
  | nil =>
    cases separator with
    | nil =>
      simp only [cutFirst?, List.isEmpty_nil, if_true, Option.some.injEq, Prod.mk.injEq] at h
      simp [← h.1, ← h.2]
    | cons => simp [cutFirst?] at h
  | cons c rest ih =>
    simp only [cutFirst?] at h
    split at h
    · rename_i found
      obtain ⟨rfl, rfl⟩ := Prod.mk.inj (Option.some.inj h)
      obtain ⟨tail, hTail⟩ := List.isPrefixOf_iff_prefix.1 found
      rw [List.nil_append, ← hTail, List.drop_left]
    · obtain ⟨⟨b, a⟩, hCut, hEq⟩ := Option.map_eq_some_iff.1 h
      obtain ⟨rfl, rfl⟩ := Prod.mk.inj hEq
      simp [← ih hCut]

/-- A text is cut at the first place of the separator: it begins nowhere before the cut. -/
theorem cutFirst?_eq_some_iff {separator cs before after : List Char} (h : separator ≠ []) :
    cutFirst? separator cs = some (before, after) ↔
      before ++ separator ++ after = cs ∧ ¬separator <:+: before ++ separator.dropLast := by
  have hlength : separator.dropLast.length + 1 = separator.length := by
    have := List.length_pos_iff.2 h
    rw [List.length_dropLast]
    omega
  constructor
  · refine fun hCut => ⟨append_of_cutFirst? hCut, ?_⟩
    induction cs generalizing before with
    | nil => simp [cutFirst?, h] at hCut
    | cons c rest ih =>
      simp only [cutFirst?] at hCut
      split at hCut
      · obtain ⟨rfl, -⟩ := Prod.mk.inj (Option.some.inj hCut)
        intro hInside
        have := hInside.length_le
        rw [List.nil_append] at this
        omega
      · rename_i hNot
        obtain ⟨⟨b, a⟩, hRest, hEq⟩ := Option.map_eq_some_iff.1 hCut
        obtain ⟨rfl, rfl⟩ := Prod.mk.inj hEq
        rw [List.cons_append, List.infix_cons_iff, not_or]
        refine ⟨fun hFront => hNot (List.isPrefixOf_iff_prefix.2 ?_), ih hRest⟩
        -- what stands in front of the last character of the separator stands in the text
        refine hFront.trans ?_
        rw [← append_of_cutFirst? hRest, List.append_assoc, List.prefix_cons_inj,
          List.prefix_append_right_inj]
        exact (List.dropLast_prefix separator).trans (List.prefix_append ..)
  · rintro ⟨rfl, hNot⟩
    induction before with
    | nil =>
      obtain ⟨c, rest, rfl⟩ := List.exists_cons_of_ne_nil h
      have hFront : (c :: rest).isPrefixOf (c :: (rest ++ after)) = true :=
        List.isPrefixOf_iff_prefix.2 (List.prefix_append (c :: rest) after)
      rw [List.nil_append, List.cons_append, cutFirst?, if_pos hFront, ← List.cons_append,
        List.drop_left]
    | cons c before ih =>
      rw [List.cons_append, List.infix_cons_iff, not_or] at hNot
      have hBehind : ¬separator.isPrefixOf (c :: (before ++ separator ++ after)) = true := by
        intro hFront
        refine hNot.1 (List.prefix_of_prefix_length_le (List.isPrefixOf_iff_prefix.1 hFront) ?_ ?_)
        · rw [List.prefix_cons_inj, List.append_assoc, List.prefix_append_right_inj]
          exact (List.dropLast_prefix separator).trans (List.prefix_append ..)
        · rw [List.length_cons, List.length_append]
          omega
      rw [List.cons_append, List.cons_append, cutFirst?, if_neg hBehind, ih hNot.2]
      rfl

/-- The last part of a text that ends in a part without the separator is that part. -/
theorem lastPart_append (separator : Char) (front last : List Char) (h : separator ∉ last) :
    lastPart separator (front ++ separator :: last) = last := by
  have hLast : ∀ c ∈ last.reverse, (c != separator) = true := fun c hc => by
    have : c ≠ separator := fun e => h (e ▸ List.mem_reverse.1 hc)
    simpa using this
  rw [lastPart, List.reverse_append, List.reverse_cons, List.append_assoc,
    List.takeWhile_append_of_pos hLast]
  simp

end ProductCatalog.Text
