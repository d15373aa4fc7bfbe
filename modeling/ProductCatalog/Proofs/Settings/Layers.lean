import ProductCatalog.Proofs.Settings.Variables

/-!
# Layers of settings

Settings come in layers: two files, environment variables, and four variables
with short names. If all that they say suits the settings, then each setting
holds what the last layer says that says anything, whatever the layers below
say and whatever is said about other settings.

By a short name a setting gets a text as it stands. By its other variable it
gets what the text is guessed to be, a truth value or a number if it looks
like one, and this is the text again only if it is spelled as such values are.

## Main definitions

* `Layers` — what the sources say; `Layers.FoundIn` — where it is found.
* `Layers.given?` — the value that the layers give a setting.
* `Layers.Typed` — the layers that suit the settings of a service.
* `Layers.effective?` — what a setting holds.
* `Layers.Counterparts` — layers that differ in the name by which a text is
  given.

## Main results

* `ServiceSettings.load_layered` — what a service is set to.
* `ServiceSettings.load_distinguishes_names` — a text that is not the same by
  both names.
-/

namespace ProductCatalog.Settings

open DotEnv (Environment valueOf?)

/-! ## Values that suit -/

/-- What an assignment does to the section of a setting suits the setting: a table is laid over the
section, or a value is set in it, and what this gives the setting stands for a content. -/
def Assignment.suits (a : Assignment) (σ : Setting) : Bool :=
  a.top ≠ σ.sectionName ||
    match a.1.steps with
    | [] => a.2.isTable && a.2.entries.all fun e =>
        lowerName e.1 ≠ σ.key || (σ.kind.content? e.2).isSome
    | [.entry name] => lowerName name ≠ σ.key || (σ.kind.content? a.2).isSome
    | _ => false

section

variable {a : Assignment} {σ : Setting}

/-- An assignment that suits a setting lays a table over its section or sets a value in it. -/
theorem Assignment.cases_of_suits (h : a.suits σ = true) (hTop : a.top = σ.sectionName) :
    (a.1.steps = [] ∧ a.2.isTable = true ∧
      ∀ e ∈ a.2.entries, lowerName e.1 = σ.key → (σ.kind.content? e.2).isSome = true) ∨
    ∃ name, a.1.steps = [.entry name] ∧
      (lowerName name = σ.key → (σ.kind.content? a.2).isSome = true) := by
  obtain ⟨⟨head, steps⟩, new⟩ := a
  rw [suits, decide_eq_false (not_not_intro hTop), Bool.false_or] at h
  match steps with
  | [] =>
    simp only [Bool.and_eq_true, List.all_eq_true, Bool.or_eq_true, decide_eq_true_eq] at h
    exact .inl ⟨rfl, h.1, fun e he hKey => (h.2 e he).resolve_left (not_not_intro hKey)⟩
  | [.entry name] =>
    simp only [Bool.or_eq_true, decide_eq_true_eq] at h
    exact .inr ⟨name, rfl, fun hKey => h.resolve_left (not_not_intro hKey)⟩
  | .item _ :: _ | .entry _ :: _ :: _ => cases h

theorem Assignment.orderly_of_suits (h : a.suits σ = true) :
    a.Orderly σ.sectionName σ.key := by
  intro hTop
  obtain ⟨hSteps, hTable, hEntries⟩ | ⟨name, hSteps, hNew⟩ := cases_of_suits h hTop
  · exact .inl ⟨hSteps, hTable, fun e he hKey => Kind.not_table (hEntries e he hKey)⟩
  · exact .inr ⟨name, hSteps, fun hKey => Kind.not_table (hNew hKey)⟩

/-- The last entry with a name is one of the entries. -/
theorem exists_of_lastNamed? {key : String} {entries : List (String × Value)} {v : Value}
    (h : lastNamed? key entries = some v) : ∃ e ∈ entries, lowerName e.1 = key ∧ e.2 = v := by
  obtain ⟨e, hFind, hValue⟩ := Option.map_eq_some_iff.1 h
  have hKey := List.find?_some hFind
  exact ⟨e, List.mem_reverse.1 (List.mem_of_find?_eq_some hFind), of_decide_eq_true hKey, hValue⟩

/-- What an assignment that suits a setting gives it stands for a content. -/
theorem Assignment.isSome_of_gives? {v : Value} (h : a.suits σ = true)
    (hGives : a.gives? σ.sectionName σ.key = some v) : (σ.kind.content? v).isSome = true := by
  by_cases hTop : a.top = σ.sectionName
  · obtain ⟨⟨head, steps⟩, new⟩ := a
    obtain ⟨hSteps, -, hEntries⟩ | ⟨name, hSteps, hNew⟩ := cases_of_suits h hTop
    · obtain rfl : steps = [] := hSteps
      have hLast : lastNamed? σ.key new.entries = some v := by
        rw [← hGives]
        exact (if_pos hTop).symm
      obtain ⟨e, he, hKey, rfl⟩ := exists_of_lastNamed? hLast
      exact hEntries e he hKey
    · obtain rfl : steps = [.entry name] := hSteps
      simp only [gives?] at hGives
      split at hGives
      · next hBoth =>
        rw [← Option.some.inj hGives]
        exact hNew hBoth.2
      · cases hGives
  · rw [gives?_of_top_ne hTop] at hGives
    cases hGives

theorem isSome_of_sourceGives? {s : Source} {v : Value}
    (h : ∀ a ∈ s, Assignment.suits a σ = true)
    (hGives : Source.gives? s σ.sectionName σ.key = some v) :
    (σ.kind.content? v).isSome = true := by
  obtain ⟨a, ha, hValue⟩ := List.exists_of_findSome?_eq_some hGives
  exact Assignment.isSome_of_gives? (h a (List.mem_reverse.1 ha)) hValue

end

/-! ## Layers -/

/-- What the sources of settings say: the entries of the default file and of the named file, and
the environment. -/
structure Layers where
  base : List (String × Value) := []
  extra : List (String × Value) := []
  env : Environment := []

/-- A file has entries. One that does not exist has none. -/
def FileHolds (file : Option (String × String)) (entries : List (String × Value)) : Prop :=
  match file with
  | some (origin, text) => Value.ofYamlText? (some origin) text = some entries
  | none => entries = []

/-- Layers are found by a service, which may have been given the name of a file. -/
structure Layers.FoundIn (l : Layers) (s : Surroundings) (path : Option String) : Prop where
  env : l.env = fullEnvironment s
  base : FileHolds (findFile? s defaultFile) l.base
  extra : match path <|> valueOf? l.env fileVariable with
    | some name => ∃ file, findFile? s name = some file ∧ FileHolds (some file) l.extra
    | none => l.extra = []

/-- The assignments that the entries of a file are. -/
def tableSource (entries : List (String × Value)) : Source :=
  entries.map fun e => (Path.ofName e.1, e.2)

/-- The value that the entries of a file give a setting. -/
def tableGives? (entries : List (String × Value)) (σ : Setting) : Option Value :=
  Source.gives? (tableSource entries) σ.sectionName σ.key

/-- The text of the last variable that is named for a setting. -/
def variableText? (env : Environment) (σ : Setting) : Option String :=
  (env.reverse.find? (lowerName ·.1 = σ.variableName)).map (·.2)

/-- The short name of a setting. -/
def Setting.shortName? : Setting → Option String
  | listenAddress => some "HTTP_ADDRESS"
  | queueUrl => some "SQS_URL"
  | region => some "SQS_REGION"
  | dsn => some "DATABASE_URL"
  | _ => none

/-- The value of a variable with a short name. -/
def shortValue (text : String) : Value := .scalar (.text text) none

/-- The text of the variable with the short name of a setting, if it is not empty. -/
def shortText? (env : Environment) (σ : Setting) : Option String :=
  (σ.shortName?.bind (valueOf? env)).filter (· ≠ "")

namespace Layers

/-- The value that the last layer gives a setting that gives it one. -/
def given? (l : Layers) (σ : Setting) : Option Value :=
  ((shortText? l.env σ).map shortValue).or
    (((variableText? l.env σ).map variableValue).or
      ((tableGives? l.extra σ).or (tableGives? l.base σ)))

/-- What a setting of a service holds under layers. -/
def effective? (l : Layers) (service : Service) (σ : Setting) : Option Content :=
  if service.Has σ then σ.holds? service (l.given? σ) else none

/-- What the files and the variables with long names set, in order. -/
def lowerSource (l : Layers) : Source :=
  tableSource l.base ++ tableSource l.extra ++ environmentSource l.env

/-- What layers set, in order. -/
def source (l : Layers) : Source := l.lowerSource ++ shortSource l.env

/-- What the files and the variables say suits the settings of a service, and underscores stand
between the parts of the names of variables, not points. -/
structure Typed (l : Layers) (service : Service) : Prop where
  suits : ∀ σ, service.Has σ → ∀ a ∈ l.lowerSource, Assignment.suits a σ = true
  points : ∀ binding ∈ l.env, (variableAssignment? binding).isSome = true →
    '.' ∉ (lowerName binding.1).toList

end Layers

/-! ## What layers give -/

/-- What a function finds that gives those elements something that have a property. -/
theorem findSome?_eq_map_find? {α β : Type} {f : α → Option β} {p : α → Bool} {g : α → β}
    {xs : List α} (h : ∀ x ∈ xs, f x = if p x = true then some (g x) else none) :
    xs.findSome? f = (xs.find? p).map g := by
  induction xs with
  | nil => rfl
  | cons x xs ih =>
    rw [List.forall_mem_cons] at h
    rw [List.findSome?_cons, h.1]
    by_cases hx : p x = true
    · rw [if_pos hx, List.find?_cons_of_pos hx, Option.map_some]
    · rw [if_neg hx, List.find?_cons_of_neg hx]
      exact ih h.2

/-- Variables without points in their names give settings what the variables for them say. -/
theorem gives?_environmentSource {env : Environment} (σ : Setting)
    (h : ∀ binding ∈ env, (variableAssignment? binding).isSome = true →
      '.' ∉ (lowerName binding.1).toList) :
    Source.gives? (environmentSource env) σ.sectionName σ.key =
      (variableText? env σ).map variableValue := by
  rw [environmentSource, Source.gives?_filterMap, variableText?, Option.map_map]
  refine findSome?_eq_map_find? fun binding hBinding => ?_
  rw [gives?_variableAssignment? fun a ha =>
    h binding (List.mem_reverse.1 hBinding) (ha ▸ rfl)]
  simp only [decide_eq_true_eq, Function.comp]

/-- The variables with short names set what they say, unless that is empty. -/
theorem shortSource_eq (env : Environment) :
    shortSource env =
      [Setting.listenAddress, .queueUrl, .region, .dsn].filterMap fun τ =>
        (shortText? env τ).map fun text => (τ.path, shortValue text) := by
  have hNames : shortNames = [Setting.listenAddress, .queueUrl, .region, .dsn].filterMap fun τ =>
      τ.shortName?.map (·, τ.path) := rfl
  rw [shortSource, hNames, List.filterMap_filterMap]
  congr 1
  funext τ
  rw [shortText?]
  cases τ.shortName? with
  | none => rfl
  | some name =>
    simp only [Option.map_some, Option.bind_some]
    cases valueOf? env name with
    | none => rfl
    | some text => by_cases hEmpty : text = "" <;> simp [hEmpty, Option.filter_some, shortValue]

/-- A value at the place of a setting is given to the settings with that place. -/
theorem bind_gives?_path (text? : Option String) (τ σ : Setting) :
    ((text?.map fun text => (τ.path, shortValue text)).bind fun a =>
        Assignment.gives? a σ.sectionName σ.key) =
      if τ.sectionName = σ.sectionName ∧ τ.key = σ.key then text?.map shortValue else none := by
  cases text? with
  | none => exact (ite_self _).symm
  | some text =>
    rw [← lowerName_key τ]
    rfl

/-- The variables with short names give settings what they say, unless that is empty. -/
theorem gives?_shortSource (env : Environment) (σ : Setting) :
    Source.gives? (shortSource env) σ.sectionName σ.key = (shortText? env σ).map shortValue := by
  rw [shortSource_eq, Source.gives?_filterMap]
  simp only [List.reverse_cons, List.reverse_nil, List.nil_append, List.cons_append,
    List.findSome?_cons, List.findSome?_nil, bind_gives?_path]
  cases σ with
  | listenAddress | queueUrl | region | dsn =>
    simp only [Setting.sectionName, Setting.key, String.reduceEq, and_false, and_self, if_true,
      if_false]
    cases shortText? env _ <;> rfl
  | _ =>
    simp only [Setting.sectionName, Setting.key, String.reduceEq, and_false, if_false]
    rfl

/-- What a short name says suits all settings. -/
theorem suits_of_mem_shortSource {env : Environment} {a : Assignment} (h : a ∈ shortSource env)
    (σ : Setting) : a.suits σ = true := by
  rw [shortSource_eq] at h
  obtain ⟨τ, hτ, hShort⟩ := List.mem_filterMap.1 h
  obtain ⟨text, -, rfl⟩ := Option.map_eq_some_iff.1 hShort
  have hKind : τ.sectionName = σ.sectionName → τ.key = σ.key → σ.kind = .text := by
    simp only [List.mem_cons, List.not_mem_nil, or_false] at hτ
    rcases hτ with rfl | rfl | rfl | rfl <;>
      cases σ <;> simp [Setting.sectionName, Setting.key, Setting.kind]
  simp only [Assignment.suits, Assignment.top, Setting.path, lowerName_key, Bool.or_eq_true,
    decide_eq_true_eq]
  by_cases hSection : τ.sectionName = σ.sectionName
  · by_cases hKey : τ.key = σ.key
    · rw [hKind hSection hKey]
      exact .inr (.inr rfl)
    · exact .inr (.inl hKey)
  · exact .inl (decide_eq_true hSection)

namespace Layers

variable {service : Service} {s : Surroundings} {path : Option String} {l : Layers}

/-- The last layer that gives a setting something is the one whose value it gets. -/
theorem gives?_source (h : l.Typed service) (σ : Setting) :
    Source.gives? l.source σ.sectionName σ.key = l.given? σ := by
  rw [source, lowerSource, Source.gives?_append, Source.gives?_append, Source.gives?_append,
    gives?_shortSource, gives?_environmentSource σ h.points]
  rfl

/-- The tree that the layers make suits the settings of the service, and what stands at them is what
the layers give them. -/
theorem suits_applySource (h : l.Typed service) {σ : Setting} (hHas : service.Has σ) :
    (applySource .empty l.source).Suits σ ∧
      (applySource .empty l.source).valueOf? σ = l.given? σ := by
  have hSuits : ∀ a ∈ l.source, Assignment.suits a σ = true := fun a ha =>
    (List.mem_append.1 ha).elim (h.suits σ hHas a) fun hShort => suits_of_mem_shortSource hShort σ
  have hEmpty : Value.empty.Sectioned σ.sectionName := fun v hv => by cases hv
  obtain ⟨hSectioned, hAt⟩ := at?_applySource hEmpty fun a ha =>
    Assignment.orderly_of_suits (hSuits a ha)
  have hNone : Value.empty.at? σ.sectionName σ.key = none := rfl
  rw [hNone, Option.or_none] at hAt
  refine ⟨⟨hSectioned, fun v hv => ?_⟩, hAt.trans (gives?_source h σ)⟩
  exact isSome_of_sourceGives? hSuits (hAt.symm.trans hv)

/-- The sources are the layers. -/
theorem sources_eq (h : l.FoundIn s path) :
    sources s path = .ok
      [tableSource l.base, tableSource l.extra, environmentSource l.env, shortSource l.env] := by
  have hFile : ∀ file entries, FileHolds (some file) entries →
      fileSource (some file.1) file.2 = .ok (tableSource entries) := by
    intro file entries hHolds
    have hText : Value.ofYamlText? (some file.1) file.2 = some entries := hHolds
    unfold fileSource
    simp only [hText]
    rfl
  have hBase : defaultSource s = .ok (tableSource l.base) := by
    have hHolds := h.base
    rw [defaultSource]
    cases hFind : findFile? s defaultFile with
    | none =>
      rw [hFind] at hHolds
      rw [show l.base = [] from hHolds]
      rfl
    | some file =>
      rw [hFind] at hHolds
      exact hFile _ _ hHolds
  have hFound := h.extra
  rw [h.env] at hFound
  rw [sources, h.env]
  refine bind_of_ok hBase ?_
  dsimp only
  generalize (path <|> valueOf? (fullEnvironment s) fileVariable) = name? at hFound ⊢
  cases name? with
  | none =>
    rw [show l.extra = [] from hFound]
    rfl
  | some name =>
    obtain ⟨file, hFind, hHolds⟩ := hFound
    have hNamed : namedSource s name = .ok (tableSource l.extra) := by
      simp only [namedSource, hFind]
      exact hFile _ _ hHolds
    exact bind_of_ok hNamed rfl

/-- What a service is set to. -/
theorem load_eq (hFound : l.FoundIn s path) (hTyped : l.Typed service) :
    ∃ t : ServiceSettings, (∀ σ, t.content? σ = l.effective? service σ) ∧
      (t.Valid → ServiceSettings.load service s path = .ok t) ∧
      (¬ t.Valid → ServiceSettings.load service s path = .error (.invalid t.problems)) := by
  have hSuits : ∀ σ, service.Has σ → (applySource .empty l.source).Suits σ := fun σ hHas =>
    (suits_applySource hTyped hHas).1
  obtain ⟨t, hHolds, hLoad⟩ := ServiceSettings.check_eq hSuits
  -- To lay sources over one another is to make all their assignments in a row.
  have hTree : [tableSource l.base, tableSource l.extra, environmentSource l.env,
      shortSource l.env].foldl applySource .empty = applySource .empty l.source := by
    simp only [source, lowerSource, applySource, List.foldl_append, List.foldl_cons, List.foldl_nil]
  refine ⟨t, fun σ => ?_, ?_⟩
  · rw [hHolds, effective?]
    by_cases hHas : service.Has σ
    · rw [if_pos hHas, if_pos hHas, (suits_applySource hTyped hHas).2]
    · rw [if_neg hHas, if_neg hHas]
  · rw [ServiceSettings.load, sources_eq hFound]
    simp only [hTree]
    exact hLoad

/-- Two layers that are told apart by the name of the variable that gives a setting a text: it is
the short name in the first, and only the other name in the second. -/
structure Counterparts (l₁ l₂ : Layers) (service : Service) (σ : Setting) (text : String) :
    Prop where
  short : shortText? l₁.env σ = some text
  noShort : shortText? l₂.env σ = none
  named : variableText? l₂.env σ = some text
  others : ∀ τ, τ ≠ σ → l₁.effective? service τ = l₂.effective? service τ

/-- The settings with short names hold texts. -/
theorem kind_of_shortText? {env : Environment} {σ : Setting} {text : String}
    (h : shortText? env σ = some text) : σ.kind = .text := by
  cases σ with
  | listenAddress | queueUrl | region | dsn => rfl
  | _ => cases h

/-- By the short name a setting gets the text, by the other what the text is guessed to be. -/
theorem Counterparts.effective_eq {l₁ l₂ : Layers} {σ : Setting} {text : String}
    (h : Counterparts l₁ l₂ service σ text) (hHas : service.Has σ) :
    l₁.effective? service σ = some (.text text) ∧
      l₂.effective? service σ = (guessScalar text).spelling?.map .text := by
  have hKind := kind_of_shortText? h.short
  constructor
  · rw [Layers.effective?, if_pos hHas, given?, h.short]
    change σ.kind.content? (shortValue text) = _
    rw [hKind]
    rfl
  · rw [Layers.effective?, if_pos hHas, given?, h.noShort, h.named]
    change σ.kind.content? (variableValue text) = _
    rw [hKind]
    rfl

end Layers

/-- Each setting of a service holds what the last layer gives it that gives it something, or what
is built in, and the service has settings if these are valid. A text may be given by either of two
names if it is spelled as what it is guessed to be. -/
theorem ServiceSettings.load_layered (service : Service) :
    (∀ s path (l : Layers), l.FoundIn s path → l.Typed service →
      ∃ t : ServiceSettings, (∀ σ, t.content? σ = l.effective? service σ) ∧
        (t.Valid → load service s path = .ok t) ∧
        (¬ t.Valid → load service s path = .error (.invalid t.problems))) ∧
    (∀ s₁ path₁ (l₁ : Layers), l₁.FoundIn s₁ path₁ → l₁.Typed service →
      ∀ s₂ path₂ (l₂ : Layers), l₂.FoundIn s₂ path₂ → l₂.Typed service →
      ∀ σ text, service.Has σ → l₁.Counterparts l₂ service σ text →
        l₁.effective? service σ = some (.text text) ∧
        l₂.effective? service σ = (guessScalar text).spelling?.map .text ∧
        ((guessScalar text).spelling? = some text →
          load service s₁ path₁ = load service s₂ path₂)) := by
  refine ⟨fun s path l => Layers.load_eq, ?_⟩
  intro s₁ path₁ l₁ hFound₁ hTyped₁ s₂ path₂ l₂ hFound₂ hTyped₂ σ text hHas hTwins
  obtain ⟨hFirst, hSecond⟩ := hTwins.effective_eq hHas
  refine ⟨hFirst, hSecond, fun hSpelling => ?_⟩
  have hSame : ∀ τ, l₁.effective? service τ = l₂.effective? service τ := by
    intro τ
    by_cases hτ : τ = σ
    · rw [hτ, hFirst, hSecond, hSpelling]
      rfl
    · exact hTwins.others τ hτ
  obtain ⟨t₁, hHolds₁, hValid₁, hInvalid₁⟩ := Layers.load_eq hFound₁ hTyped₁
  obtain ⟨t₂, hHolds₂, hValid₂, hInvalid₂⟩ := Layers.load_eq hFound₂ hTyped₂
  obtain rfl : t₁ = t₂ := eq_of_content? fun τ => by rw [hHolds₁, hHolds₂, hSame]
  by_cases hValid : t₁.Valid
  · rw [hValid₁ hValid, hValid₂ hValid]
  · rw [hInvalid₁ hValid, hInvalid₂ hValid]

/-- What a service finds that is told its region by a variable of some name. -/
def regionSurroundings (name : String) : Surroundings where
  files := [("config.yaml", "broker:\n  queue_url: http://q/1/x\n"),
    ("extra.yml", "broker:\n  region: b\n")]
  env := [("CATALOG_CONFIG", "extra"), ("CATALOG__POSTGRES__AUTO_MIGRATE", "no"),
    ("DATABASE_URL", "postgres://d"), (name, "c")]

/-- The layers in `regionSurroundings`. -/
def regionLayers (name : String) : Layers where
  base := (Value.ofYamlText? (some "config.yaml") "broker:\n  queue_url: http://q/1/x\n").getD []
  extra := (Value.ofYamlText? (some "extra.yml") "broker:\n  region: b\n").getD []
  env := (regionSurroundings name).env

theorem fileHolds_getD {origin text : String}
    (h : (Value.ofYamlText? (some origin) text).isSome = true) :
    FileHolds (some (origin, text)) ((Value.ofYamlText? (some origin) text).getD []) := by
  obtain ⟨entries, hEntries⟩ := Option.isSome_iff_exists.1 h
  rw [hEntries]
  exact hEntries

theorem foundIn_regionSurroundings (name : String) :
    (regionLayers name).FoundIn (regionSurroundings name) none := by
  -- What is found does not depend on the environment, and so not on the name.
  have hFiles : ∀ path, findFile? (regionSurroundings name) path =
      findFile? { files := (regionSurroundings "").files } path := fun _ => rfl
  have hBase : findFile? { files := (regionSurroundings "").files } defaultFile =
      some ("config.yaml", "broker:\n  queue_url: http://q/1/x\n") := by decide +kernel
  have hExtra : findFile? { files := (regionSurroundings "").files } "extra" =
      some ("extra.yml", "broker:\n  region: b\n") := by decide +kernel
  have hName : (none <|> valueOf? (regionLayers name).env fileVariable) = some "extra" := by
    simp [valueOf?, regionLayers, regionSurroundings, fileVariable]
  refine ⟨?_, ?_, ?_⟩
  · simp [fullEnvironment, regionLayers, regionSurroundings, environmentFile]
  · rw [hFiles, hBase]
    simp only [regionLayers]
    exact fileHolds_getD (by decide +kernel)
  · rw [hName]
    simp only [regionLayers]
    exact ⟨_, (hFiles _).trans hExtra, fileHolds_getD (by decide +kernel)⟩

/-- The two names of the variable for the region. -/
def regionNames : List String := ["SQS_REGION", "CATALOG__BROKER__REGION"]

theorem typed_regionLayers {name : String} (h : name ∈ regionNames) :
    (regionLayers name).Typed .products := by
  have hSuits : ∀ name ∈ regionNames, ∀ σ, Service.products.Has σ →
      ∀ a ∈ (regionLayers name).lowerSource, Assignment.suits a σ = true := by
    decide +kernel
  have hPoints : ∀ name ∈ regionNames, ∀ binding ∈ (regionLayers name).env,
      (variableAssignment? binding).isSome = true → '.' ∉ (lowerName binding.1).toList := by
    decide +kernel
  exact ⟨hSuits name h, hPoints name h⟩

/-- The service is in the region `c`, whatever the files say, by either name. -/
theorem ServiceSettings.load_layered_of_region :
    load .products (regionSurroundings "SQS_REGION") none =
      .ok {
        broker := { queueUrl := "http://q/1/x", region := "c" }
        database := some { dsn := "postgres://d", autoMigrate := false } } ∧
    load .products (regionSurroundings "SQS_REGION") none =
      load .products (regionSurroundings "CATALOG__BROKER__REGION") none := by
  obtain ⟨hEach, hEither⟩ := load_layered .products
  have hFirst : (regionLayers "SQS_REGION").Typed .products := typed_regionLayers (.head _)
  have hSecond : (regionLayers "CATALOG__BROKER__REGION").Typed .products :=
    typed_regionLayers (.tail _ (.head _))
  constructor
  · obtain ⟨t, hHolds, hValid, -⟩ := hEach _ _ _ (foundIn_regionSurroundings _) hFirst
    have hContents : ∀ σ, (regionLayers "SQS_REGION").effective? .products σ =
        ({
          broker := { queueUrl := "http://q/1/x", region := "c" }
          database := some { dsn := "postgres://d", autoMigrate := false } } :
            ServiceSettings).content? σ := by decide +kernel
    obtain rfl := eq_of_content? fun σ => (hHolds σ).trans (hContents σ)
    exact hValid (problems_eq_nil_iff.1 (by decide +kernel))
  · obtain ⟨-, -, hSame⟩ := hEither _ _ _ (foundIn_regionSurroundings _) hFirst _ _ _
      (foundIn_regionSurroundings _) hSecond .region "c" (by decide)
      ⟨by decide +kernel, by decide +kernel, by decide +kernel, by decide +kernel⟩
    exact hSame (by decide +kernel)

/-- A region that looks like a truth value is not the same by both names. -/
theorem ServiceSettings.load_distinguishes_names :
    load .notifications
        { env := [("CATALOG__BROKER__REGION", "TRUE"), ("SQS_URL", "http://q/1/x")] } none =
      .ok { broker := { queueUrl := "http://q/1/x", region := "true" } } ∧
    load .notifications { env := [("SQS_REGION", "TRUE"), ("SQS_URL", "http://q/1/x")] } none =
      .ok { broker := { queueUrl := "http://q/1/x", region := "TRUE" } } := by
  constructor <;> decide +kernel

end ProductCatalog.Settings
