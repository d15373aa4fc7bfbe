import ProductCatalog.Settings.Load

/-!
# What is laid over what

Sources of settings are lists of assignments, each of which lays a value over
a place of a tree. For a key of a section the many ways to do so come to
one thing: an assignment either gives the key a value, and then it has that
value, or leaves it as it was. What holds for this is that assignments that
lead into the section either lay a table over it or set one entry in it, and
that the section is a table before.

So what stands at the key after any number of assignments is the value that
the last one gives that gives one, whatever stood there before and whatever
the assignments do elsewhere.

## Main definitions

* `Value.at?` — the value at a key of a section.
* `Assignment.gives?` — the value that an assignment gives a key.
* `Assignment.Orderly` — the assignments that keep sections together.

## Main results

* `Value.get?_putAll` — the entries of a table laid over a table.
* `at?_set` — one assignment.
* `at?_applySource` — all assignments of a source.
-/

namespace ProductCatalog.Settings

/-! ## Entries -/

namespace Value

/-- Whether a value is a table. -/
def isTable : Value → Bool
  | table .. => true
  | _ => false

/-- The value at a key of a section. -/
def at? (root : Value) (sectionName key : String) : Option Value :=
  (root.get? sectionName).bind (·.get? key)

@[simp] theorem get?_withEntry_self (v : Value) (name : String) (new : Value) :
    (v.withEntry name new).get? name = some new :=
  lookup_replace_self name new v.entries

theorem get?_withEntry_of_ne {name other : String} (v new : Value) (h : other ≠ name) :
    (v.withEntry name new).get? other = v.get? other :=
  lookup_replace_of_ne new v.entries h

@[simp] theorem get?_empty (name : String) : empty.get? name = none := rfl

@[simp] theorem get?_nothing (name : String) : nothing.get? name = none := rfl

/-- All but a table takes the place of what was there. -/
theorem put_of_not_table {new : Value} (h : new.isTable = false) (name : String) (v : Value) :
    put name new v = v.withEntry (lowerName name) new := by
  cases new with
  | scalar => rw [put]; exact fun _ _ e => by cases e
  | list => rw [put]; exact fun _ _ e => by cases e
  | table => cases h

@[simp] theorem isTable_put (name : String) (new v : Value) : (put name new v).isTable = true := by
  cases new <;> rw [put] <;> first | rfl | exact fun _ _ e => by cases e

theorem get?_put_of_ne {name other : String} (new v : Value) (h : other ≠ lowerName name) :
    (put name new v).get? other = v.get? other := by
  cases new with
  | table entries origin => rw [put, get?_withEntry_of_ne _ _ h]
  | scalar | list => rw [put_of_not_table rfl, get?_withEntry_of_ne _ _ h]

theorem get?_put_self {new : Value} (h : new.isTable = false) (name : String) (v : Value) :
    (put name new v).get? (lowerName name) = some new := by
  rw [put_of_not_table h, get?_withEntry_self]

theorem isTable_putAll (entries : List (String × Value)) {v : Value} (h : v.isTable = true) :
    (putAll entries v).isTable = true := by
  induction entries generalizing v with
  | nil => rwa [putAll]
  | cons entry rest ih =>
    rw [putAll]
    exact ih (isTable_put ..)

end Value

/-- The value that a list of entries gives a name. Names are meant in any case, and the last entry
with the name counts. -/
def lastNamed? (name : String) (entries : List (String × Value)) : Option Value :=
  (entries.reverse.find? (lowerName ·.1 = name)).map (·.2)

theorem lastNamed?_cons (name : String) (entry : String × Value)
    (rest : List (String × Value)) :
    lastNamed? name (entry :: rest) =
      (lastNamed? name rest).or (if lowerName entry.1 = name then some entry.2 else none) := by
  rw [lastNamed?, lastNamed?, List.reverse_cons, List.find?_append]
  by_cases h : lowerName entry.1 = name
  · cases List.find? (lowerName ·.1 = name) rest.reverse <;> simp [h]
  · cases List.find? (lowerName ·.1 = name) rest.reverse <;> simp [h]

/-- Entries laid over a table give their names their values, unless tables are merged. -/
theorem Value.get?_putAll {key : String} {entries : List (String × Value)}
    (h : ∀ e ∈ entries, lowerName e.1 = key → e.2.isTable = false) (v : Value) :
    (putAll entries v).get? key = (lastNamed? key entries).or (v.get? key) := by
  induction entries generalizing v with
  | nil => rw [putAll]; rfl
  | cons entry rest ih =>
    obtain ⟨name, new⟩ := entry
    rw [List.forall_mem_cons] at h
    rw [putAll, ih h.2, lastNamed?_cons, Option.or_assoc]
    congr 1
    by_cases hName : lowerName name = key
    · subst hName
      rw [get?_put_self (h.1 rfl), if_pos rfl, Option.some_or]
    · rw [get?_put_of_ne _ _ (Ne.symm hName), if_neg hName, Option.none_or]

/-! ## One assignment -/

/-- The outermost entry that an assignment changes. Only the last name of a path is meant in any
case. -/
def Assignment.top (a : Assignment) : String :=
  match a.1.steps with
  | [] => lowerName a.1.head
  | _ => a.1.head

/-- The value that an assignment gives a key of a section. -/
def Assignment.gives? (a : Assignment) (sectionName key : String) : Option Value :=
  match a.1.steps with
  | [] => if lowerName a.1.head = sectionName then lastNamed? key a.2.entries else none
  | [.entry name] => if a.1.head = sectionName ∧ lowerName name = key then some a.2 else none
  | _ => none

/-- If an assignment leads into a section, then it lays a table over it or sets an entry in it, and
what it gives the key is no table. -/
def Assignment.Orderly (a : Assignment) (sectionName key : String) : Prop :=
  a.top = sectionName →
    (a.1.steps = [] ∧ a.2.isTable = true ∧
      ∀ e ∈ a.2.entries, lowerName e.1 = key → e.2.isTable = false) ∨
    ∃ name, a.1.steps = [.entry name] ∧ (lowerName name = key → a.2.isTable = false)

/-- A section is a table, if it is there at all. -/
def Value.Sectioned (root : Value) (sectionName : String) : Prop :=
  ∀ v, root.get? sectionName = some v → v.isTable = true

section

variable {root : Value} {a : Assignment} {sectionName key : String}

/-- An assignment leaves all but one of the outermost entries alone. -/
theorem get?_set_of_ne (h : a.top ≠ sectionName) :
    (root.set a.1 a.2).get? sectionName = root.get? sectionName := by
  obtain ⟨⟨head, steps⟩, new⟩ := a
  cases steps with
  | nil => exact Value.get?_put_of_ne _ _ (Ne.symm h)
  | cons step rest => exact Value.get?_withEntry_of_ne _ _ (Ne.symm h)

theorem gives?_of_top_ne (h : a.top ≠ sectionName) : a.gives? sectionName key = none := by
  obtain ⟨⟨head, steps⟩, new⟩ := a
  match steps with
  | [] => exact if_neg h
  | [.entry name] => exact if_neg fun hBoth => h hBoth.1
  | .item _ :: _ | .entry _ :: _ :: _ => rfl

theorem Value.Sectioned.getD_empty (h : root.Sectioned sectionName) :
    ((root.get? sectionName).getD .empty).isTable = true := by
  cases hGet : root.get? sectionName with
  | none => rfl
  | some v => exact h v hGet

theorem Value.at?_eq_getD {default : Value} (h : ∀ name, default.get? name = none) :
    ((root.get? sectionName).getD default).get? key = root.at? sectionName key := by
  rw [at?]
  cases root.get? sectionName with
  | none => exact h key
  | some v => rfl

/-- A table laid over a section. -/
theorem at?_put {entries : List (String × Value)} {head : String} (origin : Option String)
    (hRoot : root.Sectioned (lowerName head))
    (h : ∀ e ∈ entries, lowerName e.1 = key → e.2.isTable = false) :
    (Value.put head (.table entries origin) root).Sectioned (lowerName head) ∧
      (Value.put head (.table entries origin) root).at? (lowerName head) key =
        (lastNamed? key entries).or (root.at? (lowerName head) key) := by
  have hGet : (Value.put head (.table entries origin) root).get? (lowerName head) =
      some (Value.putAll entries ((root.get? (lowerName head)).getD .empty)) := by
    rw [Value.put, Value.get?_withEntry_self]
  constructor
  · intro v hv
    rw [hGet] at hv
    rw [← Option.some.inj hv]
    exact Value.isTable_putAll entries hRoot.getD_empty
  · rw [Value.at?, hGet, Option.bind_some, Value.get?_putAll h,
      Value.at?_eq_getD Value.get?_empty]

/-- An entry set in a section. -/
theorem at?_withEntry {head name : String} {new : Value}
    (h : lowerName name = key → new.isTable = false) :
    (root.set ⟨head, [.entry name]⟩ new).Sectioned head ∧
      (root.set ⟨head, [.entry name]⟩ new).at? head key =
        (if lowerName name = key then some new else none).or (root.at? head key) := by
  have hGet : (root.set ⟨head, [.entry name]⟩ new).get? head =
      some (Value.put name new ((root.get? head).getD .nothing)) :=
    Value.get?_withEntry_self ..
  constructor
  · intro v hv
    rw [hGet] at hv
    rw [← Option.some.inj hv]
    exact Value.isTable_put ..
  · rw [Value.at?, hGet, Option.bind_some]
    by_cases hName : lowerName name = key
    · subst hName
      rw [Value.get?_put_self (h rfl), if_pos rfl, Option.some_or]
    · rw [Value.get?_put_of_ne _ _ (Ne.symm hName), Value.at?_eq_getD Value.get?_nothing,
        if_neg hName, Option.none_or]

/-- An assignment gives a key its value or leaves it alone, and the section stays a table. -/
theorem at?_set (hRoot : root.Sectioned sectionName) (h : a.Orderly sectionName key) :
    (root.set a.1 a.2).Sectioned sectionName ∧
      (root.set a.1 a.2).at? sectionName key =
        (a.gives? sectionName key).or (root.at? sectionName key) := by
  by_cases hTop : a.top = sectionName
  · obtain ⟨⟨head, steps⟩, new⟩ := a
    rcases h hTop with ⟨hSteps, hTable, hEntries⟩ | ⟨name, hSteps, hNew⟩
    · obtain rfl : steps = [] := hSteps
      subst hTop
      cases new with
      | scalar | list => cases hTable
      | table entries origin =>
        have hGives : Assignment.gives? (⟨head, []⟩, .table entries origin) (lowerName head) key =
            lastNamed? key entries := if_pos rfl
        change _ ∧ _ = (Assignment.gives? _ (lowerName head) key).or _
        rw [hGives]
        exact at?_put origin hRoot hEntries
    · obtain rfl : steps = [.entry name] := hSteps
      obtain rfl : head = sectionName := hTop
      have hGives : Assignment.gives? (⟨head, [.entry name]⟩, new) head key =
          if lowerName name = key then some new else none := by
        simp only [Assignment.gives?, true_and]
      rw [hGives]
      exact at?_withEntry hNew
  · have hGet : (root.set a.1 a.2).get? sectionName = root.get? sectionName :=
      get?_set_of_ne hTop
    rw [gives?_of_top_ne hTop, Option.none_or, Value.at?, Value.at?, hGet]
    exact ⟨fun v hv => hRoot v (hGet ▸ hv), rfl⟩

/-! ## Sources -/

/-- The value that the last assignment gives a key that gives one. -/
def Source.gives? (s : Source) (sectionName key : String) : Option Value :=
  s.reverse.findSome? fun a => Assignment.gives? a sectionName key

theorem Source.gives?_cons (a : Assignment) (s : Source) (sectionName key : String) :
    Source.gives? (a :: s) sectionName key =
      (Source.gives? s sectionName key).or (a.gives? sectionName key) := by
  rw [gives?, List.reverse_cons, List.findSome?_append, List.findSome?_singleton]
  rfl

theorem Source.gives?_append (s t : Source) (sectionName key : String) :
    Source.gives? (s ++ t) sectionName key =
      (Source.gives? t sectionName key).or (Source.gives? s sectionName key) := by
  rw [gives?, List.reverse_append, List.findSome?_append]
  rfl

/-- A source that is drawn from a list gives what the last element with an assignment for the key
does. -/
theorem Source.gives?_filterMap {α : Type} (f : α → Option Assignment) (xs : List α)
    (sectionName key : String) :
    Source.gives? (xs.filterMap f) sectionName key =
      xs.reverse.findSome? fun x => (f x).bind fun a => a.gives? sectionName key := by
  rw [gives?, ← List.filterMap_reverse, ← List.head?_filterMap, List.filterMap_filterMap,
    List.head?_filterMap]

/-- After all assignments of a source a key has the last value that they give it, or the one that
it had. -/
theorem at?_applySource {s : Source} (hRoot : root.Sectioned sectionName)
    (h : ∀ a ∈ s, Assignment.Orderly a sectionName key) :
    (applySource root s).Sectioned sectionName ∧
      (applySource root s).at? sectionName key =
        (Source.gives? s sectionName key).or (root.at? sectionName key) := by
  induction s generalizing root with
  | nil => exact ⟨hRoot, rfl⟩
  | cons a s ih =>
    rw [List.forall_mem_cons] at h
    obtain ⟨hSectioned, hAt⟩ := at?_set hRoot h.1
    obtain ⟨hRest, hAll⟩ := ih hSectioned h.2
    refine ⟨hRest, ?_⟩
    rw [Source.gives?_cons, Option.or_assoc, ← hAt]
    exact hAll

end

end ProductCatalog.Settings
