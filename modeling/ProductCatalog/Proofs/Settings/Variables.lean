import ProductCatalog.Proofs.Settings.Contents
import ProductCatalog.Text.Hexadecimal

/-!
# Settings in the environment

A setting has an environment variable that is named for its section and its
key, in any case. As long as no point occurs in the names of variables, such a
variable sets its setting, and only it does: the point that stands for two
underscores can be taken back.

## Main definitions

* `Setting.path`, `Setting.variableName` — where a setting stands, and the
  environment variable for it.
* `variableValue` — what a variable sets to a text.

## Main results

* `variableAssignment?_of_named` — what the variable for a setting sets.
* `variableName_of_gives?` — only the variable for a setting sets it.
* `gives?_variableAssignment?` — both at once.
-/

namespace ProductCatalog.Settings

/-- The place of a setting. -/
def Setting.path (σ : Setting) : Path := ⟨σ.sectionName, [.entry σ.key]⟩

/-- The name of the environment variable for a setting, in lower case. -/
def Setting.variableName (σ : Setting) : String :=
  variableStart ++ σ.sectionName ++ "__" ++ σ.key

/-- The value of a variable for a setting. -/
def variableValue (text : String) : Value := .scalar (guessScalar text) (some environmentOrigin)

theorem Setting.toList_variableName (σ : Setting) :
    σ.variableName.toList =
      variableStart.toList ++ (σ.sectionName.toList ++ '_' :: '_' :: σ.key.toList) := by
  simp [variableName]

/-! ## Case -/

/-- What is in lower case stays as it is, and so do points. -/
theorem lowerName_eq_self {s name : String}
    (h : ∀ c ∈ s.toList, c ∈ (lowerName name).toList ∨ c = '.') : lowerName s = s := by
  have hAscii : ∀ n : Fin 0x80, (Char.ofNat n.val).toLower.toLower = (Char.ofNat n.val).toLower ∧
      (Char.ofNat n.val).toLower ≠ '\u212a' := by decide
  have hLower : ∀ c : Char, c ≠ '\u212a' → c.toLower.toLower = c.toLower ∧ c.toLower ≠ '\u212a' := by
    intro c hc
    by_cases hSmall : c.toNat < 0x80
    · simpa only [Char.ofNat_toNat] using hAscii ⟨c.toNat, hSmall⟩
    · have hSame : c.toLower = c := Text.toLower_of_le (by omega)
      rw [hSame, hSame]
      exact ⟨rfl, hc⟩
  have hFixed : s.toList.map (fun c => if c = '\u212a' then 'k' else c.toLower) = s.toList := by
    refine (List.map_congr_left fun c hc => ?_).trans (List.map_id _)
    rcases h c hc with hc | rfl
    · simp only [lowerName, String.toList_ofList, List.mem_map] at hc
      obtain ⟨d, -, rfl⟩ := hc
      by_cases hd : d = '\u212a'
      · rw [if_pos hd]; decide
      · rw [if_neg hd, if_neg (hLower d hd).2, (hLower d hd).1, id]
    · decide
  rw [lowerName, hFixed, String.ofList_toList]

/-! ## Underscores and points -/

/-- A name in which two underscores stand for each point. -/
def withoutPoints (cs : List Char) : List Char :=
  cs.flatMap fun c => if c = '.' then ['_', '_'] else [c]

theorem mem_keyOfName {c : Char} {cs : List Char} (h : c ∈ keyOfName cs) : c ∈ cs ∨ c = '.' := by
  fun_induction keyOfName cs with
  | case1 => cases h
  | case2 rest ih =>
    rcases List.mem_cons.1 h with rfl | h
    · exact .inr rfl
    · exact (ih h).imp_left fun h => .tail _ (.tail _ h)
  | case3 d rest _ ih =>
    rcases List.mem_cons.1 h with rfl | h
    · exact .inl (.head _)
    · exact (ih h).imp_left (.tail _)

/-- Points stand for two underscores, unless there are points in the name. -/
theorem withoutPoints_keyOfName {cs : List Char} (h : '.' ∉ cs) :
    withoutPoints (keyOfName cs) = cs := by
  fun_induction keyOfName cs with
  | case1 => rfl
  | case2 rest ih =>
    rw [withoutPoints, List.flatMap_cons, ← withoutPoints, ih fun h' => h (.tail _ (.tail _ h'))]
    rfl
  | case3 d rest _ ih =>
    rw [List.mem_cons, not_or] at h
    rw [withoutPoints, List.flatMap_cons, ← withoutPoints, ih h.2, if_neg (Ne.symm h.1)]
    rfl

/-! ## Paths -/

/-- Steps are read from nothing, or they begin with a name or an index. -/
theorem readSteps_cases {fuel : Nat} {cs : List Char} {steps : List Step}
    (h : Path.readSteps fuel cs = some steps) :
    (cs = [] ∧ steps = []) ∨
    (∃ fuel rest more, cs = '.' :: rest ∧
      steps = .entry (String.ofList (rest.takeWhile Path.isNameChar)) :: more ∧
      Path.readSteps fuel (rest.drop (rest.takeWhile Path.isNameChar).length) = some more) ∨
    ∃ index more, steps = .item index :: more := by
  rw [Path.readSteps.eq_def] at h
  split at h
  · exact .inl ⟨rfl, (Option.some.inj h).symm⟩
  · cases h
  · next fuel rest =>
    dsimp only at h
    split at h
    · cases h
    · obtain ⟨more, hMore, rfl⟩ := Option.map_eq_some_iff.1 h
      exact .inr (.inl ⟨fuel, rest, more, rfl, rfl, hMore⟩)
  · dsimp only at h
    split at h
    · obtain ⟨more, -, rfl⟩ := Option.map_eq_some_iff.1 h
      exact .inr (.inr ⟨_, more, rfl⟩)
    · cases h
  · cases h

/-- One name is read from a point and the name. -/
theorem readSteps_eq_entry {fuel : Nat} {cs : List Char} {name : String}
    (h : Path.readSteps fuel cs = some [.entry name]) : cs = '.' :: name.toList := by
  obtain ⟨-, hSteps⟩ | ⟨fuel, rest, more, rfl, hSteps, hMore⟩ | ⟨index, more, hSteps⟩ :=
    readSteps_cases h
  · cases hSteps
  · obtain ⟨hName, rfl⟩ := List.cons.inj hSteps
    obtain ⟨hRest, -⟩ | ⟨_, _, _, -, hNone, -⟩ | ⟨_, _, hNone⟩ := readSteps_cases hMore
    · rw [Step.entry.inj hName, String.toList_ofList,
        (List.takeWhile_sublist _).eq_of_length_le (List.drop_eq_nil_iff.1 hRest)]
    · cases hNone
    · cases hNone
  · cases hSteps

/-- A path to an entry of a section is denoted by their names with a point between them. -/
theorem ofName_eq_entry {text head name : String}
    (h : Path.ofName text = ⟨head, [.entry name]⟩) :
    text.toList = head.toList ++ '.' :: name.toList := by
  rw [Path.ofName] at h
  split at h
  · next steps hSteps =>
    split at h
    · cases h
    · cases h
      rw [String.toList_ofList, ← readSteps_eq_entry hSteps]
      exact (List.prefix_iff_eq_append.1 (List.takeWhile_prefix _)).symm
  · cases h

/-- Two names with a point between them denote the entry of a section. -/
theorem ofName_entry {head name : List Char} (hHead : head.all Path.isNameChar = true)
    (hName : name.all Path.isNameChar = true) (hHead' : head ≠ []) (hName' : name ≠ []) :
    Path.ofName (String.ofList (head ++ '.' :: name)) =
      ⟨String.ofList head, [.entry (String.ofList name)]⟩ := by
  rw [List.all_eq_true] at hHead hName
  have hTake : (head ++ '.' :: name).takeWhile Path.isNameChar = head := by
    rw [List.takeWhile_append_of_pos hHead, List.takeWhile_cons_of_neg (by decide),
      List.append_nil]
  have hSteps : ∀ fuel, Path.readSteps (fuel + 1) ('.' :: name) =
      some [.entry (String.ofList name)] := by
    intro fuel
    have hWhole : name.takeWhile Path.isNameChar = name := by
      rw [← List.append_nil name, List.takeWhile_append_of_pos hName, List.takeWhile_nil]
    simp [Path.readSteps, hWhole, hName']
  simp only [Path.ofName, String.toList_ofList, hTake, List.drop_left, List.length_append,
    List.length_cons, ← Nat.add_assoc, hSteps, List.isEmpty_eq_false_iff.2 hHead']
  rfl

/-! ## What variables set -/

/-- A variable whose name begins so sets what the rest of the name says. -/
theorem variableAssignment?_eq_some_iff {binding : String × String} {a : Assignment} :
    variableAssignment? binding = some a ↔
      ∃ rest, (lowerName binding.1).toList = variableStart.toList ++ rest ∧
        a = (Path.ofName (String.ofList (keyOfName rest)), variableValue binding.2) := by
  have hDrop : ∀ rest, (variableStart.toList ++ rest).drop variableStart.length = rest :=
    fun rest => List.drop_left
  rw [variableAssignment?]
  constructor
  · intro h
    split at h
    · next hStart =>
      obtain ⟨rest, hRest⟩ := List.isPrefixOf_iff_prefix.1 hStart
      rw [← hRest, hDrop] at h
      exact ⟨rest, hRest.symm, (Option.some.inj h).symm⟩
    · cases h
  · rintro ⟨rest, hRest, rfl⟩
    rw [hRest, if_pos (List.isPrefixOf_iff_prefix.2 (List.prefix_append _ _)), hDrop]
    rfl

/-- The variable for a setting sets it. -/
theorem variableAssignment?_of_named {σ : Setting} {binding : String × String}
    (h : lowerName binding.1 = σ.variableName) :
    variableAssignment? binding = some (σ.path, variableValue binding.2) := by
  have hNames : σ.sectionName.toList.all Path.isNameChar = true ∧
      σ.key.toList.all Path.isNameChar = true ∧ σ.sectionName.toList ≠ [] ∧ σ.key.toList ≠ [] := by
    cases σ <;> simp only [Setting.sectionName, Setting.key, String.reduceToList] <;> decide
  have hKey : keyOfName (σ.sectionName.toList ++ '_' :: '_' :: σ.key.toList) =
      σ.sectionName.toList ++ '.' :: σ.key.toList := by
    cases σ <;> simp [Setting.sectionName, Setting.key, keyOfName]
  refine variableAssignment?_eq_some_iff.2 ⟨_, by rw [h, σ.toList_variableName], ?_⟩
  rw [hKey, ofName_entry hNames.1 hNames.2.1 hNames.2.2.1 hNames.2.2.2, String.ofList_toList,
    String.ofList_toList, Setting.path]

/-- Only the variable for a setting sets it. -/
theorem variableName_of_gives? {σ : Setting} {binding : String × String} {a : Assignment}
    (hPoint : '.' ∉ (lowerName binding.1).toList) (h : variableAssignment? binding = some a)
    (hGives : a.gives? σ.sectionName σ.key ≠ none) : lowerName binding.1 = σ.variableName := by
  obtain ⟨rest, hRest, rfl⟩ := variableAssignment?_eq_some_iff.1 h
  rw [hRest, List.mem_append, not_or] at hPoint
  cases hPath : Path.ofName (String.ofList (keyOfName rest)) with
  | mk head steps =>
    rw [hPath] at hGives
    match steps with
    | [] => exact absurd (ite_self _) hGives
    | [.entry name] =>
      obtain ⟨rfl, hKey⟩ : head = σ.sectionName ∧ lowerName name = σ.key :=
        Decidable.byContradiction fun hNot => hGives (if_neg hNot)
      have hChars := ofName_eq_entry hPath
      rw [String.toList_ofList] at hChars
      -- The name is a part of a name in lower case: it is the key, not only in some case.
      have hSame : lowerName name = name := lowerName_eq_self fun c hc => by
        have hMem : c ∈ keyOfName rest := by
          rw [hChars]
          exact List.mem_append_right _ (.tail _ hc)
        rw [hRest]
        exact (mem_keyOfName hMem).imp_left (List.mem_append_right _)
      have hBack : withoutPoints (σ.sectionName.toList ++ '.' :: σ.key.toList) =
          σ.sectionName.toList ++ '_' :: '_' :: σ.key.toList := by
        cases σ <;> simp [Setting.sectionName, Setting.key, withoutPoints]
      -- There are no points to be confused with those that stand for underscores.
      have hSpelled := withoutPoints_keyOfName hPoint.2
      rw [hChars, ← hSame, hKey, hBack] at hSpelled
      rw [← String.toList_inj, hRest, σ.toList_variableName, hSpelled]
    | .item _ :: _ | .entry _ :: _ :: _ => exact absurd rfl hGives

/-- The keys of settings are in lower case. -/
theorem lowerName_key (σ : Setting) : lowerName σ.key = σ.key := by
  cases σ <;> decide

/-- A variable without points in its name sets a setting if it is the variable for it. -/
theorem gives?_variableAssignment? {σ : Setting} {binding : String × String}
    (hPoint : ∀ a, variableAssignment? binding = some a → '.' ∉ (lowerName binding.1).toList) :
    ((variableAssignment? binding).bind fun a => a.gives? σ.sectionName σ.key) =
      if lowerName binding.1 = σ.variableName then some (variableValue binding.2) else none := by
  by_cases hName : lowerName binding.1 = σ.variableName
  · rw [variableAssignment?_of_named hName, if_pos hName]
    exact if_pos ⟨rfl, lowerName_key σ⟩
  · rw [if_neg hName]
    cases hSome : variableAssignment? binding with
    | none => rfl
    | some a =>
      exact Decidable.byContradiction fun hGives =>
        hName (variableName_of_gives? (hPoint a hSome) hSome hGives)

end ProductCatalog.Settings
