import Mathlib.Data.Fintype.OfMap
import ProductCatalog.Proofs.Settings.Merging

/-!
# What settings hold

A setting is a key of a section, and its kind says what it holds and which
values of a tree stand for that. The settings of a service hold one content
for each setting, and are determined by these.

If the sections of a tree are tables, and each value that stands at a setting
stands for a content, then the tree is read, and each setting holds what its
value stands for, or what is built in where there is no value.

## Main definitions

* `Setting` — the settings; `Setting.sectionName`, `Setting.key`,
  `Setting.kind`.
* `Content` — what a setting holds; `Kind.content?` — what a value stands for.
* `ServiceSettings.content?` — what settings hold.
* `ServiceSettings.Valid` — the settings with which a service may start.

## Main results

* `ServiceSettings.ofTree_eq` — what is read from a tree.
* `ServiceSettings.eq_of_content?` — settings are determined by their contents.
* `ServiceSettings.problems_eq_nil_iff` — nothing is wrong with valid settings.
-/

namespace ProductCatalog.Settings

open Text (isSocketAddress)

/-! ## Settings and their contents -/

/-- What a setting holds. -/
inductive Content
  | text (s : String)
  | optionalText (s : Option String)
  | number (n : Nat)
  | truth (b : Bool)
deriving Repr, DecidableEq

/-- The types of settings. -/
inductive Kind
  | text
  | optionalText
  | number
  | smallNumber
  | truth
deriving Repr, DecidableEq

/-- The settings. -/
inductive Setting
  | listenAddress
  | gracefulTimeout
  | bodyLimit
  | queueUrl
  | region
  | endpointUrl
  | maxMessages
  | waitTime
  | receiveRetryDelay
  | handlerTimeout
  | deleteTimeout
  | dsn
  | maxConnections
  | connectRetries
  | connectRetryDelay
  | acquireTimeout
  | autoMigrate
deriving Repr, DecidableEq

namespace Setting

instance : Fintype Setting :=
  Fintype.ofList
    [listenAddress, gracefulTimeout, bodyLimit, queueUrl, region, endpointUrl, maxMessages, waitTime,
      receiveRetryDelay, handlerTimeout, deleteTimeout, dsn, maxConnections, connectRetries,
      connectRetryDelay, acquireTimeout, autoMigrate]
    fun σ => by cases σ <;> decide

/-- The section that a setting belongs to. -/
def sectionName : Setting → String
  | listenAddress | gracefulTimeout | bodyLimit => "http"
  | queueUrl | region | endpointUrl | maxMessages | waitTime | receiveRetryDelay | handlerTimeout
  | deleteTimeout => "broker"
  | dsn | maxConnections | connectRetries | connectRetryDelay | acquireTimeout
  | autoMigrate => "postgres"

/-- The key of a setting in its section. -/
def key : Setting → String
  | listenAddress => "listen_address"
  | gracefulTimeout => "graceful_timeout_ms"
  | bodyLimit => "body_limit_bytes"
  | queueUrl => "queue_url"
  | region => "region"
  | endpointUrl => "endpoint_url"
  | maxMessages => "max_messages"
  | waitTime => "wait_time_seconds"
  | receiveRetryDelay => "retry_delay_ms"
  | handlerTimeout => "handler_timeout_ms"
  | deleteTimeout => "delete_timeout_ms"
  | dsn => "dsn"
  | maxConnections => "max_connections"
  | connectRetries => "connect_retries"
  | connectRetryDelay => "retry_delay_ms"
  | acquireTimeout => "acquire_timeout_ms"
  | autoMigrate => "auto_migrate"

/-- The type of a setting. -/
def kind : Setting → Kind
  | listenAddress | queueUrl | region | dsn => .text
  | endpointUrl => .optionalText
  | maxMessages | maxConnections | connectRetries => .smallNumber
  | gracefulTimeout | bodyLimit | waitTime | receiveRetryDelay | handlerTimeout | deleteTimeout
  | connectRetryDelay | acquireTimeout => .number
  | autoMigrate => .truth

end Setting

/-- A service has a setting. Only the products service has a database. -/
def Service.Has (service : Service) (σ : Setting) : Prop :=
  service = .products ∨ σ.sectionName ≠ "postgres"

instance (service : Service) (σ : Setting) : Decidable (service.Has σ) :=
  inferInstanceAs (Decidable (_ ∨ _))

/-- What settings hold. Without a database its settings hold nothing. -/
def ServiceSettings.content? (s : ServiceSettings) : Setting → Option Content
  | .listenAddress => some (.text s.http.listenAddress)
  | .gracefulTimeout => some (.number s.http.gracefulTimeout)
  | .bodyLimit => some (.number s.http.bodyLimit)
  | .queueUrl => some (.text s.broker.queueUrl)
  | .region => some (.text s.broker.region)
  | .endpointUrl => some (.optionalText s.broker.endpointUrl)
  | .maxMessages => some (.number s.broker.maxMessages)
  | .waitTime => some (.number s.broker.waitTimeSeconds)
  | .receiveRetryDelay => some (.number s.broker.retryDelay)
  | .handlerTimeout => some (.number s.broker.handlerTimeout)
  | .deleteTimeout => some (.number s.broker.deleteTimeout)
  | .dsn => s.database.map (.text ·.dsn)
  | .maxConnections => s.database.map (.number ·.maxConnections)
  | .connectRetries => s.database.map (.number ·.connectRetries)
  | .connectRetryDelay => s.database.map (.number ·.retryDelay)
  | .acquireTimeout => s.database.map (.number ·.acquireTimeout)
  | .autoMigrate => s.database.map (.truth ·.autoMigrate)

/-- Settings are determined by what they hold. -/
theorem ServiceSettings.eq_of_content? {s t : ServiceSettings}
    (h : ∀ σ, s.content? σ = t.content? σ) : s = t := by
  obtain ⟨⟨a, g, l⟩, ⟨q, r, e, m, w, y, i, x⟩, d⟩ := s
  obtain ⟨⟨a', g', l'⟩, ⟨q', r', e', m', w', y', i', x'⟩, d'⟩ := t
  cases h .listenAddress
  cases h .gracefulTimeout
  cases h .bodyLimit
  cases h .queueUrl
  cases h .region
  cases h .endpointUrl
  cases h .maxMessages
  cases h .waitTime
  cases h .receiveRetryDelay
  cases h .handlerTimeout
  cases h .deleteTimeout
  match d, d' with
  | none, none => rfl
  | none, some _ => cases h .dsn
  | some _, none => cases h .dsn
  | some ⟨d, m, c, r, t, b⟩, some ⟨d', m', c', r', t', b'⟩ =>
    cases h .dsn
    cases h .maxConnections
    cases h .connectRetries
    cases h .connectRetryDelay
    cases h .acquireTimeout
    cases h .autoMigrate
    rfl

/-- What a service is set to where no source says anything. -/
def Service.builtIn (service : Service) : ServiceSettings where
  database := if service = .products then some {} else none

/-! ## What a value stands for -/

/-- The text that a scalar is written as. -/
def Scalar.spelling? : Scalar → Option String
  | nothing => none
  | boolean b => some (if b then "true" else "false")
  | integer n => some (integerText n)
  | number x => some (Binary64.Shortest.plain x)
  | text s => some s

/-- What a value stands for in a setting of some kind. -/
def Kind.content? (kind : Kind) (v : Value) : Option Content :=
  match kind, v with
  | .text, .scalar s _ => s.spelling?.map .text
  | .optionalText, .scalar .nothing _ => some (.optionalText none)
  | .optionalText, .scalar s _ => s.spelling?.map fun text => .optionalText (some text)
  | .number, v => (readNumber v "").toOption.map .number
  | .smallNumber, v => (readSmallNumber v "").toOption.map .number
  | .truth, v => (readBoolean v "").toOption.map .truth
  | _, _ => none

/-- No table stands for the content of a setting. -/
theorem Kind.not_table {kind : Kind} {v : Value} (h : (kind.content? v).isSome = true) :
    v.isTable = false := by
  cases v with
  | scalar | list => rfl
  | table => cases kind <;> cases h

/-- A reader gives what a value stands for, under every key. -/
def Reads {α : Type} (kind : Kind) (wrap : α → Content)
    (reader : Value → String → Except LoadFault α) : Prop :=
  ∀ v c, kind.content? v = some c → ∀ key, ∃ x, reader v key = .ok x ∧ wrap x = c

theorem reads_text : Reads .text .text readText := by
  intro v c h key
  cases v with
  | scalar s origin =>
    cases s with
    | nothing => cases h
    | boolean | integer | number | text => exact ⟨_, rfl, Option.some.inj h⟩
  | list | table => cases h

theorem reads_optionalText : Reads .optionalText .optionalText readOptionalText := by
  intro v c h key
  cases v with
  | scalar s origin =>
    cases s with
    | nothing | boolean | integer | number | text => exact ⟨_, rfl, Option.some.inj h⟩
  | list | table => cases h

/-- What is read does not depend on the key. -/
theorem toOption_readNumber (v : Value) (key : String) :
    (readNumber v key).toOption = (readNumber v "").toOption := by
  cases v with
  | scalar s origin =>
    cases s with
    | nothing | boolean | number => rfl
    | integer n =>
      simp only [readNumber]
      split <;> rfl
    | text s =>
      simp only [readNumber]
      split <;> rfl
  | list | table => rfl

theorem toOption_readSmallNumber (v : Value) (key : String) :
    (readSmallNumber v key).toOption = (readSmallNumber v "").toOption := by
  have hNumber := toOption_readNumber v key
  simp only [readSmallNumber]
  cases hKey : readNumber v key with
  | error =>
    cases hNone : readNumber v "" with
    | error => rfl
    | ok n =>
      rw [hKey, hNone] at hNumber
      cases hNumber
  | ok n =>
    cases hNone : readNumber v "" with
    | error =>
      rw [hKey, hNone] at hNumber
      cases hNumber
    | ok m =>
      rw [hKey, hNone] at hNumber
      obtain rfl : n = m := Option.some.inj hNumber
      simp only [bind, Except.bind]
      split <;> rfl

theorem toOption_readBoolean (v : Value) (key : String) :
    (readBoolean v key).toOption = (readBoolean v "").toOption := by
  cases v with
  | scalar s origin =>
    cases s with
    | nothing | boolean | integer | number => rfl
    | text s =>
      simp only [readBoolean]
      split <;> rfl
  | list | table => rfl

theorem reads_of_toOption {α : Type} {kind : Kind} {wrap : α → Content}
    {reader : Value → String → Except LoadFault α}
    (hContent : ∀ v, kind.content? v = (reader v "").toOption.map wrap)
    (hKey : ∀ v key, (reader v key).toOption = (reader v "").toOption) :
    Reads kind wrap reader := by
  intro v c h key
  rw [hContent, ← hKey v key] at h
  cases hRead : reader v key with
  | error => rw [hRead] at h; cases h
  | ok x =>
    rw [hRead] at h
    exact ⟨x, rfl, Option.some.inj h⟩

theorem reads_number : Reads .number .number readNumber :=
  reads_of_toOption (fun _ => rfl) toOption_readNumber

theorem reads_smallNumber : Reads .smallNumber .number readSmallNumber :=
  reads_of_toOption (fun _ => rfl) toOption_readSmallNumber

theorem reads_truth : Reads .truth .truth readBoolean :=
  reads_of_toOption (fun _ => rfl) toOption_readBoolean

/-! ## Reading a tree -/

/-- What a setting holds, given its value if there is one. -/
def Setting.holds? (σ : Setting) (service : Service) (given : Option Value) : Option Content :=
  match given with
  | some v => σ.kind.content? v
  | none => service.builtIn.content? σ

/-- The value that stands at a setting. -/
def Value.valueOf? (root : Value) (σ : Setting) : Option Value := root.at? σ.sectionName σ.key

/-- The section of a setting is a table, and its value stands for a content. -/
structure Value.Suits (root : Value) (σ : Setting) : Prop where
  sectioned : root.Sectioned σ.sectionName
  stands : ∀ v, root.valueOf? σ = some v → (σ.kind.content? v).isSome = true

section

variable {root : Value} {service : Service}

/-- A section that is a table shows what stands at its keys. -/
theorem Section.of?_sectioned {name : String} (h : root.Sectioned name) (typeName : String) :
    ∃ s, Section.of? root name typeName = .ok s ∧
      ∀ field place, s.bind (·.find? field place) =
        (root.at? name field).map (·, name ++ "." ++ field) := by
  rw [Section.of?]
  simp only [Value.at?]
  cases hGet : root.get? name with
  | none => exact ⟨none, rfl, fun _ _ => rfl⟩
  | some v =>
    cases v with
    | scalar | list => cases h _ hGet
    | table entries origin => exact ⟨some ⟨name, _⟩, rfl, fun _ _ => rfl⟩

variable (service) in
/-- A setting is read as what its value stands for. -/
theorem Section.read_eq {α : Type} {s : Option Section} (σ : Setting) {wrap : α → Content}
    {reader : Value → String → Except LoadFault α} (hReads : Reads σ.kind wrap reader)
    (hShows : ∀ field place, s.bind (·.find? field place) =
      (root.at? σ.sectionName field).map (·, σ.sectionName ++ "." ++ field))
    (hSuits : root.Suits σ) (place : Nat) {default : α}
    (hDefault : service.builtIn.content? σ = some (wrap default)) :
    ∃ x, Section.read s σ.key place default reader = .ok x ∧
      some (wrap x) = σ.holds? service (root.valueOf? σ) := by
  rw [Section.read, hShows]
  have hStands := hSuits.stands
  simp only [Value.valueOf?] at hStands ⊢
  cases hAt : root.at? σ.sectionName σ.key with
  | none => exact ⟨default, rfl, hDefault.symm⟩
  | some v =>
    obtain ⟨c, hContent⟩ := Option.isSome_iff_exists.1 (hStands v hAt)
    obtain ⟨x, hRead, hWrap⟩ := hReads v c hContent (σ.sectionName ++ "." ++ σ.key)
    exact ⟨x, hRead, by rw [hWrap]; exact hContent.symm⟩

/-- A reading goes on with what has been read. -/
theorem bind_of_ok {α β : Type} {x : Except LoadFault α} {f : α → Except LoadFault β} {a : α}
    {r : Except LoadFault β} (hx : x = .ok a) (hf : f a = r) : (x >>= f) = r := by
  rw [hx]
  exact hf

/-- The settings for HTTP are read. -/
theorem HttpSettings.ofTree_eq (h : ∀ σ, service.Has σ → root.Suits σ) :
    ∃ s, HttpSettings.ofTree root = .ok s ∧
      ∀ t : ServiceSettings, t.http = s → ∀ σ, σ.sectionName = "http" →
        t.content? σ = σ.holds? service (root.valueOf? σ) := by
  have hSuits : ∀ σ, σ.sectionName = "http" → root.Suits σ := fun σ hσ =>
    h σ (.inr (by rw [hσ]; decide))
  obtain ⟨s, hSection, hShows⟩ :=
    Section.of?_sectioned (hSuits .listenAddress rfl).sectioned "HttpSettings"
  obtain ⟨address, hRead₁, h₁⟩ := Section.read_eq service .listenAddress reads_text hShows
    (hSuits _ rfl) 0 rfl
  obtain ⟨timeout, hRead₂, h₂⟩ := Section.read_eq service .gracefulTimeout reads_number hShows
    (hSuits _ rfl) 1 rfl
  obtain ⟨limit, hRead₃, h₃⟩ := Section.read_eq service .bodyLimit reads_number hShows
    (hSuits _ rfl) 2 rfl
  refine ⟨⟨address, timeout, limit⟩, ?_, ?_⟩
  · rw [HttpSettings.ofTree]
    exact bind_of_ok hSection (bind_of_ok hRead₁ (bind_of_ok hRead₂ (bind_of_ok hRead₃ rfl)))
  · rintro ⟨_, broker, database⟩ rfl σ hσ
    cases σ with
    | listenAddress => exact h₁
    | gracefulTimeout => exact h₂
    | bodyLimit => exact h₃
    | _ => exact absurd hσ (by decide)

/-- The settings for the broker are read. -/
theorem BrokerSettings.ofTree_eq (h : ∀ σ, service.Has σ → root.Suits σ) :
    ∃ s, BrokerSettings.ofTree root = .ok s ∧
      ∀ t : ServiceSettings, t.broker = s → ∀ σ, σ.sectionName = "broker" →
        t.content? σ = σ.holds? service (root.valueOf? σ) := by
  have hSuits : ∀ σ, σ.sectionName = "broker" → root.Suits σ := fun σ hσ =>
    h σ (.inr (by rw [hσ]; decide))
  obtain ⟨s, hSection, hShows⟩ :=
    Section.of?_sectioned (hSuits .queueUrl rfl).sectioned "BrokerSettings"
  obtain ⟨url, hRead₁, h₁⟩ := Section.read_eq service .queueUrl reads_text hShows
    (hSuits _ rfl) 0 rfl
  obtain ⟨region, hRead₂, h₂⟩ := Section.read_eq service .region reads_text hShows
    (hSuits _ rfl) 1 rfl
  obtain ⟨endpoint, hRead₃, h₃⟩ := Section.read_eq service .endpointUrl reads_optionalText hShows
    (hSuits _ rfl) 2 rfl
  obtain ⟨messages, hRead₄, h₄⟩ := Section.read_eq service .maxMessages reads_smallNumber hShows
    (hSuits _ rfl) 3 rfl
  obtain ⟨wait, hRead₅, h₅⟩ := Section.read_eq service .waitTime reads_number hShows
    (hSuits _ rfl) 4 rfl
  obtain ⟨delay, hRead₆, h₆⟩ := Section.read_eq service .receiveRetryDelay reads_number hShows
    (hSuits _ rfl) 5 rfl
  obtain ⟨handling, hRead₇, h₇⟩ := Section.read_eq service .handlerTimeout reads_number hShows
    (hSuits _ rfl) 6 rfl
  obtain ⟨deletion, hRead₈, h₈⟩ := Section.read_eq service .deleteTimeout reads_number hShows
    (hSuits _ rfl) 7 rfl
  refine ⟨⟨url, region, endpoint, messages, wait, delay, handling, deletion⟩, ?_, ?_⟩
  · rw [BrokerSettings.ofTree]
    exact bind_of_ok hSection (bind_of_ok hRead₁ (bind_of_ok hRead₂ (bind_of_ok hRead₃
      (bind_of_ok hRead₄ (bind_of_ok hRead₅ (bind_of_ok hRead₆ (bind_of_ok hRead₇
        (bind_of_ok hRead₈ rfl))))))))
  · rintro ⟨http, _, database⟩ rfl σ hσ
    cases σ with
    | queueUrl => exact h₁
    | region => exact h₂
    | endpointUrl => exact h₃
    | maxMessages => exact h₄
    | waitTime => exact h₅
    | receiveRetryDelay => exact h₆
    | handlerTimeout => exact h₇
    | deleteTimeout => exact h₈
    | _ => exact absurd hσ (by decide)

/-- The settings for the database are read. -/
theorem DatabaseSettings.ofTree_eq (h : ∀ σ, Service.products.Has σ → root.Suits σ) :
    ∃ s, DatabaseSettings.ofTree root = .ok s ∧
      ∀ t : ServiceSettings, t.database = some s → ∀ σ, σ.sectionName = "postgres" →
        t.content? σ = σ.holds? .products (root.valueOf? σ) := by
  have hSuits : ∀ σ, root.Suits σ := fun σ => h σ (.inl rfl)
  obtain ⟨s, hSection, hShows⟩ :=
    Section.of?_sectioned (hSuits .dsn).sectioned "PostgresSettings"
  obtain ⟨dsn, hRead₁, h₁⟩ := Section.read_eq .products .dsn reads_text hShows (hSuits _) 0 rfl
  obtain ⟨connections, hRead₂, h₂⟩ := Section.read_eq .products .maxConnections
    reads_smallNumber hShows (hSuits _) 1 rfl
  obtain ⟨retries, hRead₃, h₃⟩ := Section.read_eq .products .connectRetries reads_smallNumber hShows
    (hSuits _) 2 rfl
  obtain ⟨delay, hRead₄, h₄⟩ := Section.read_eq .products .connectRetryDelay reads_number hShows
    (hSuits _) 3 rfl
  obtain ⟨timeout, hRead₅, h₅⟩ := Section.read_eq .products .acquireTimeout reads_number hShows
    (hSuits _) 4 rfl
  obtain ⟨migrate, hRead₆, h₆⟩ := Section.read_eq .products .autoMigrate reads_truth hShows
    (hSuits _) 5 rfl
  refine ⟨⟨dsn, connections, retries, delay, timeout, migrate⟩, ?_, ?_⟩
  · rw [DatabaseSettings.ofTree]
    exact bind_of_ok hSection (bind_of_ok hRead₁ (bind_of_ok hRead₂ (bind_of_ok hRead₃
      (bind_of_ok hRead₄ (bind_of_ok hRead₅ (bind_of_ok hRead₆ rfl))))))
  · rintro ⟨http, broker, _⟩ rfl σ hσ
    cases σ with
    | dsn => exact h₁
    | maxConnections => exact h₂
    | connectRetries => exact h₃
    | connectRetryDelay => exact h₄
    | acquireTimeout => exact h₅
    | autoMigrate => exact h₆
    | _ => exact absurd hσ (by decide)

/-- The settings of a service are read, and hold what stands in the tree. -/
theorem ServiceSettings.ofTree_eq (h : ∀ σ, service.Has σ → root.Suits σ) :
    ∃ s, ServiceSettings.ofTree service root = .ok s ∧
      ∀ σ, s.content? σ = if service.Has σ then σ.holds? service (root.valueOf? σ) else none := by
  obtain ⟨http, hHttp, hHttpHolds⟩ := HttpSettings.ofTree_eq h
  obtain ⟨broker, hBroker, hBrokerHolds⟩ := BrokerSettings.ofTree_eq h
  cases service with
  | products =>
    obtain ⟨database, hDatabase, hDatabaseHolds⟩ := DatabaseSettings.ofTree_eq h
    refine ⟨⟨http, broker, some database⟩, ?_, fun σ => ?_⟩
    · rw [ServiceSettings.ofTree]
      exact bind_of_ok hHttp (bind_of_ok hBroker (bind_of_ok hDatabase rfl))
    · rw [if_pos (.inl rfl)]
      cases σ with
      | listenAddress | gracefulTimeout | bodyLimit => exact hHttpHolds _ rfl _ rfl
      | queueUrl | region | endpointUrl | maxMessages | waitTime | receiveRetryDelay
      | handlerTimeout | deleteTimeout => exact hBrokerHolds _ rfl _ rfl
      | dsn | maxConnections | connectRetries | connectRetryDelay | acquireTimeout
      | autoMigrate => exact hDatabaseHolds _ rfl _ rfl
  | notifications =>
    refine ⟨⟨http, broker, none⟩, ?_, fun σ => ?_⟩
    · rw [ServiceSettings.ofTree]
      exact bind_of_ok hHttp (bind_of_ok hBroker rfl)
    · cases σ with
      | listenAddress | gracefulTimeout | bodyLimit =>
        rw [if_pos (by decide)]
        exact hHttpHolds _ rfl _ rfl
      | queueUrl | region | endpointUrl | maxMessages | waitTime | receiveRetryDelay
      | handlerTimeout | deleteTimeout =>
        rw [if_pos (by decide)]
        exact hBrokerHolds _ rfl _ rfl
      | dsn | maxConnections | connectRetries | connectRetryDelay | acquireTimeout
      | autoMigrate => exact (if_neg (by decide)).symm

end

/-! ## Checking -/

/-- The settings with which a service may start. -/
structure ServiceSettings.Valid (s : ServiceSettings) : Prop where
  listenAddress : isSocketAddress s.http.listenAddress = true
  bodyLimit : 0 < s.http.bodyLimit
  queueUrl : isBlankText s.broker.queueUrl = false
  region : isBlankText s.broker.region = false
  maxMessages : 1 ≤ s.broker.maxMessages ∧ s.broker.maxMessages ≤ 10
  waitTime : s.broker.waitTimeSeconds ≤ 20
  retryDelay : 0 < s.broker.retryDelay
  handlerTimeout : 0 < s.broker.handlerTimeout
  deleteTimeout : 0 < s.broker.deleteTimeout
  dsn : ∀ d ∈ s.database, isBlankText d.dsn = false
  maxConnections : ∀ d ∈ s.database, 0 < d.maxConnections

theorem problemIf_eq_nil_iff {present : Bool} {p : Problem} :
    problemIf present p = [] ↔ present = false := by
  cases present <;> simp [problemIf]

/-- Nothing is wrong with valid settings, and with no others. -/
theorem ServiceSettings.problems_eq_nil_iff {s : ServiceSettings} : s.problems = [] ↔ s.Valid := by
  obtain ⟨http, broker, database⟩ := s
  have hDatabase : (database.map (·.problems)).getD [] = [] ↔
      (∀ d ∈ database, isBlankText d.dsn = false) ∧ ∀ d ∈ database, 0 < d.maxConnections := by
    cases database with
    | none => simp
    | some d => simp [DatabaseSettings.problems, problemIf_eq_nil_iff, Nat.pos_iff_ne_zero]
  simp only [problems, HttpSettings.problems, BrokerSettings.problems, List.append_eq_nil_iff,
    problemIf_eq_nil_iff, hDatabase, Bool.not_eq_false', Bool.or_eq_false_iff,
    decide_eq_false_iff_not, Nat.not_lt, ← Nat.pos_iff_ne_zero]
  constructor
  · rintro ⟨⟨⟨hAddress, hLimit⟩, ⟨⟨⟨⟨⟨hUrl, hRegion⟩, hMessages⟩, hWait⟩, hDelay⟩, hHandling⟩,
      hDeletion⟩, hDsn, hConnections⟩
    exact ⟨hAddress, hLimit, hUrl, hRegion, hMessages, hWait, hDelay, hHandling, hDeletion, hDsn,
      hConnections⟩
  · intro h
    exact ⟨⟨⟨h.listenAddress, h.bodyLimit⟩, ⟨⟨⟨⟨⟨h.queueUrl, h.region⟩, h.maxMessages⟩,
      h.waitTime⟩, h.retryDelay⟩, h.handlerTimeout⟩, h.deleteTimeout⟩, h.dsn, h.maxConnections⟩

/-- A service has settings if those that its tree holds are valid. -/
theorem ServiceSettings.check_eq {root : Value} {service : Service}
    (h : ∀ σ, service.Has σ → root.Suits σ) :
    ∃ s : ServiceSettings,
      (∀ σ, s.content? σ =
        if service.Has σ then σ.holds? service (root.valueOf? σ) else none) ∧
      (s.Valid → check service root = .ok s) ∧
      (¬ s.Valid → check service root = .error (.invalid s.problems)) := by
  obtain ⟨s, hRead, hHolds⟩ := ServiceSettings.ofTree_eq h
  refine ⟨s, hHolds, fun hValid => ?_, fun hInvalid => ?_⟩
  · simp only [check, hRead, problems_eq_nil_iff.2 hValid]
    rfl
  · have hProblems : s.problems.isEmpty = false :=
      List.isEmpty_eq_false_iff.2 (mt problems_eq_nil_iff.1 hInvalid)
    simp only [check, hRead, hProblems]
    rfl

end ProductCatalog.Settings
