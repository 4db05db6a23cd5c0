import ExchangeCatalog.Proofs.Lists
import ExchangeCatalog.Settings.Decode
import ExchangeCatalog.Settings.Format
import ExchangeCatalog.Settings.Variable
import Mathlib.Data.List.Infix

/-!
# The known settings, one by one

Each setting has a place in the tree, a type and a range. What a layer writes in its place is right
when it has this type and lies in this range; the conversions of `Settings.ofTree`, which accept
more, then give the value that is written.

## Main definitions

* `SettingKind` — the types of settings, with the conversion of each and the values that are right
  for it
* `SettingKey` — the settings, with the path, the kind and the variable of each
* `Settings.value`, `Settings.ofValues` — all settings as the value of each

## Main results

* `SettingKind.convert_of_ofSetting?` — a right value is converted to what is written
* `SettingKind.ofSetting?_ofToml` — a right value of a file stays right in the tree
* `SettingKey.settingName?_variableName` — the variable of a setting holds it
* `Settings.ext_value` — settings have no other parts
-/

namespace ExchangeCatalog

/-! ### Types of settings -/

/-- The types of settings. -/
inductive SettingKind
  | text
  | word16
  | word32
  | word64
  | truth
  | texts
  | backend
  deriving DecidableEq, Repr

/-- The text that a value of a file is. -/
def Toml.text? : Toml → Option String
  | .string s => some s
  | _ => none

/-- The text that a setting of a tree is. -/
def Setting.text? : Setting → Option String
  | .plain _ (.text s) => some s
  | _ => none

namespace SettingKind

/-- The values of a kind. -/
abbrev Value : SettingKind → Type
  | text => String
  | word16 => UInt16
  | word32 => UInt32
  | word64 => UInt64
  | truth => Bool
  | texts => List String
  | backend => BackendChoice

/-- The conversion to a kind. -/
def convert : (kind : SettingKind) → Setting → Except SettingFault kind.Value
  | text => Setting.text
  | word16 => fun s => (s.narrowUint 16).map UInt16.ofNat
  | word32 => fun s => (s.narrowUint 32).map UInt32.ofNat
  | word64 => Setting.uint
  | truth => Setting.boolean
  | texts => Setting.texts
  | backend => Setting.backend

/-- An integer as a natural number below a bound. -/
def natBelow? (bound : Nat) (n : Int) : Option Nat :=
  if 0 ≤ n ∧ n < bound then some n.toNat else none

/-- The value of a kind that stands in a place without parts, when its type and range are right.
Integers of files and of variables lie within a signed word. -/
def ofPlain? : (kind : SettingKind) → PlainSetting → Option kind.Value
  | text, .text s => some s
  | word16, .integer n => (natBelow? UInt16.size n).map UInt16.ofNat
  | word32, .integer n => (natBelow? UInt32.size n).map UInt32.ofNat
  | word64, .integer n => (natBelow? 0x8000000000000000 n).map UInt64.ofNat
  | truth, .boolean b => some b
  | backend, .text s =>
    if s = "postgres" then some BackendChoice.postgres
    else if s = "memory" then some BackendChoice.memory
    else none
  | _, _ => none

/-- The value of a kind that a file has, when its type and range are right. -/
def ofToml? : (kind : SettingKind) → Toml → Option kind.Value
  | texts, .array vs => vs.mapM Toml.text?
  | kind, .string s => kind.ofPlain? (.text s)
  | kind, .integer n => kind.ofPlain? (.integer n)
  | kind, .boolean b => kind.ofPlain? (.boolean b)
  | _, _ => none

/-- The value of a kind that a tree has, when its type and range are right. -/
def ofSetting? : (kind : SettingKind) → Setting → Option kind.Value
  | texts, .list _ items => items.mapM Setting.text?
  | kind, .plain _ s => kind.ofPlain? s
  | _, _ => none

variable {kind : SettingKind}

theorem natBelow?_eq_some_iff {bound : Nat} {n : Int} {m : Nat} :
    natBelow? bound n = some m ↔ n = m ∧ m < bound := by
  unfold natBelow?
  split <;> simp <;> omega

private theorem narrowUint_natCast (o : Origin) {m bits : Nat} (hm : m < 1 <<< bits)
    (hbits : bits ≤ 64) :
    (Setting.plain o (.integer m)).narrowUint bits = .ok m := by
  have hsize : m < UInt64.size := by
    calc m < 1 <<< bits := hm
      _ ≤ 2 ^ 64 := by rw [Nat.one_shiftLeft]; exact Nat.pow_le_pow_right (by decide) hbits
  have htoNat : (UInt64.ofNat m).toNat = m := UInt64.toNat_ofNat_of_lt' hsize
  show (if (UInt64.ofNat m).toNat < 1 <<< bits then Except.ok (UInt64.ofNat m).toNat else _) = _
  rw [htoNat, if_pos hm]

private theorem textsFrom_of_mapM (i : Nat) {items : List Setting} {ts : List String}
    (h : items.mapM Setting.text? = some ts) : Setting.textsFrom i items = .ok ts := by
  induction items generalizing i ts with
  | nil => simp_all [Setting.textsFrom]
  | cons s items ih =>
    rw [List.mapM_cons] at h
    obtain ⟨t, ht, h⟩ := Option.bind_eq_some_iff.1 h
    obtain ⟨ts', hts, h⟩ := Option.bind_eq_some_iff.1 h
    obtain rfl : t :: ts' = ts := by simpa using h
    obtain ⟨o, rfl⟩ : ∃ o, s = .plain o (.text t) := by
      unfold Setting.text? at ht
      split at ht <;> simp_all
    rw [Setting.textsFrom, ih (i + 1) hts]
    rfl

/-- A right value is converted to what is written. -/
theorem convert_of_ofPlain? {s : PlainSetting} {x : kind.Value} (h : kind.ofPlain? s = some x)
    (o : Origin) : kind.convert (.plain o s) = .ok x := by
  cases kind <;> cases s <;> simp only [ofPlain?, reduceCtorEq] at h
  case text.text s =>
    obtain rfl := Option.some.inj h
    rfl
  case word16.integer n =>
    obtain ⟨m, hm, rfl⟩ := Option.map_eq_some_iff.1 h
    obtain ⟨rfl, hlt⟩ := natBelow?_eq_some_iff.1 hm
    have hread := narrowUint_natCast o (show m < 1 <<< 16 from hlt) (by decide)
    exact congrArg (Except.map UInt16.ofNat) hread
  case word32.integer n =>
    obtain ⟨m, hm, rfl⟩ := Option.map_eq_some_iff.1 h
    obtain ⟨rfl, hlt⟩ := natBelow?_eq_some_iff.1 hm
    have hread := narrowUint_natCast o (show m < 1 <<< 32 from hlt) (by decide)
    exact congrArg (Except.map UInt32.ofNat) hread
  case word64.integer n =>
    obtain ⟨m, hm, rfl⟩ := Option.map_eq_some_iff.1 h
    obtain ⟨rfl, -⟩ := natBelow?_eq_some_iff.1 hm
    rfl
  case truth.boolean b =>
    obtain rfl := Option.some.inj h
    rfl
  case backend.text s =>
    split at h
    · obtain rfl := Option.some.inj h
      subst s
      rfl
    · split at h
      · obtain rfl := Option.some.inj h
        subst s
        rfl
      · cases h

theorem ofSetting?_plain (o : Origin) (s : PlainSetting) :
    kind.ofSetting? (.plain o s) = kind.ofPlain? s := by
  cases kind <;> rfl

/-- A right value of a tree is converted to what is written. -/
theorem convert_of_ofSetting? {s : Setting} {x : kind.Value} (h : kind.ofSetting? s = some x) :
    kind.convert s = .ok x := by
  cases s with
  | plain o s => exact convert_of_ofPlain? (ofSetting?_plain o s ▸ h) o
  | list o items =>
    cases kind <;> simp only [ofSetting?, reduceCtorEq] at h
    exact textsFrom_of_mapM 0 h
  | «section» o es => cases kind <;> simp only [ofSetting?, reduceCtorEq] at h

/-- A section is no value of any kind. -/
theorem ofSetting?_section (o : Origin) (es : List (String × Setting)) :
    kind.ofSetting? (.section o es) = none := by
  cases kind <;> rfl

/-- A table is no value of any kind. -/
theorem ofToml?_table (es : List (String × Toml)) : kind.ofToml? (.table es) = none := by
  cases kind <;> rfl

private theorem mapM_text?_ofTomlItems (o : Origin) (vs : List Toml) {ts : List String}
    (h : vs.mapM Toml.text? = some ts) :
    (Setting.ofTomlItems o vs).mapM Setting.text? = some ts := by
  induction vs generalizing ts with
  | nil => exact h
  | cons v vs ih =>
    rw [List.mapM_cons] at h
    obtain ⟨t, ht, h⟩ := Option.bind_eq_some_iff.1 h
    obtain ⟨ts', hts, h⟩ := Option.bind_eq_some_iff.1 h
    obtain rfl : t :: ts' = ts := by simpa using h
    obtain rfl : v = .string t := by
      cases v <;> simp_all [Toml.text?]
    rw [Setting.ofTomlItems, List.mapM_cons, ih hts]
    rfl

/-- A right value of a file stays right in the tree of its layer. -/
theorem ofSetting?_ofToml {v : Toml} {x : kind.Value} (h : kind.ofToml? v = some x) (o : Origin) :
    kind.ofSetting? (.ofToml o v) = some x := by
  cases v with
  | string s | integer s | boolean s =>
    rw [Setting.ofToml, ofSetting?_plain]
    cases kind <;> exact h
  | array vs =>
    cases kind <;> simp only [ofToml?, reduceCtorEq] at h
    exact mapM_text?_ofTomlItems o vs h
  | float _ | dateTime _ | table _ => cases kind <;> simp only [ofToml?, reduceCtorEq] at h

end SettingKind

/-! ### The settings -/

/-- The settings. -/
inductive SettingKey
  | host
  | port
  | publicScheme
  | requestTimeoutSeconds
  | allowedOrigins
  | allowedMethods
  | allowedHeaders
  | exposedHeaders
  | allowCredentials
  | maxAgeSeconds
  | backend
  | url
  | maxConnections
  | minConnections
  | connectTimeoutSeconds
  | idleTimeoutSeconds
  | level
  | format
  deriving DecidableEq, Repr

namespace SettingKey

/-- The names on the way to a setting. -/
def path : SettingKey → List String
  | host => ["server", "host"]
  | port => ["server", "port"]
  | publicScheme => ["server", "public_scheme"]
  | requestTimeoutSeconds => ["server", "request_timeout_seconds"]
  | allowedOrigins => ["server", "cors", "allowed_origins"]
  | allowedMethods => ["server", "cors", "allowed_methods"]
  | allowedHeaders => ["server", "cors", "allowed_headers"]
  | exposedHeaders => ["server", "cors", "exposed_headers"]
  | allowCredentials => ["server", "cors", "allow_credentials"]
  | maxAgeSeconds => ["server", "cors", "max_age_seconds"]
  | backend => ["database", "backend"]
  | url => ["database", "url"]
  | maxConnections => ["database", "max_connections"]
  | minConnections => ["database", "min_connections"]
  | connectTimeoutSeconds => ["database", "connect_timeout_seconds"]
  | idleTimeoutSeconds => ["database", "idle_timeout_seconds"]
  | level => ["logging", "level"]
  | format => ["logging", "format"]

/-- The paths of the sections, the whole tree included. -/
def sections : List (List String) := [[], ["server"], ["server", "cors"], ["database"], ["logging"]]

/-- The type of a setting. -/
abbrev kind : SettingKey → SettingKind
  | host | publicScheme | url | level | format => .text
  | port => .word16
  | maxConnections | minConnections => .word32
  | requestTimeoutSeconds | maxAgeSeconds | connectTimeoutSeconds | idleTimeoutSeconds => .word64
  | allowCredentials => .truth
  | allowedOrigins | allowedMethods | allowedHeaders | exposedHeaders => .texts
  | backend => .backend

/-- The values of a setting. -/
abbrev Value (k : SettingKey) : Type := k.kind.Value

/-- The name of a setting in writing. -/
def name (k : SettingKey) : String := String.intercalate "." k.path

/-- The variable of a setting. -/
def variableName (k : SettingKey) : String :=
  String.intercalate "__" ("IBROKER" :: k.path.map String.toUpper)

/-- All settings, section by section. -/
def all : List SettingKey :=
  [host, port, publicScheme, requestTimeoutSeconds, allowedOrigins, allowedMethods, allowedHeaders,
    exposedHeaders, allowCredentials, maxAgeSeconds, backend, url, maxConnections, minConnections,
    connectTimeoutSeconds, idleTimeoutSeconds, level, format]

theorem mem_all (k : SettingKey) : k ∈ all := by cases k <;> decide

/-- No setting stands on the way to another. -/
theorem eq_of_path_prefix {k k' : SettingKey} (h : k.path <+: k'.path) : k = k' := by
  have hall : ∀ k ∈ all, ∀ k' ∈ all, k.path <+: k'.path → k = k' := by decide +kernel
  exact hall k k.mem_all k' k'.mem_all h

/-- No section has the path of a setting. -/
theorem path_not_mem_sections (k : SettingKey) : k.path ∉ sections := by
  cases k <;> decide

/-- What stands on the way to a setting is a section. -/
theorem mem_sections_of_prefix {k : SettingKey} {before : List String} (h : before <+: k.path)
    (hne : before ≠ k.path) : before ∈ sections := by
  have hall : ∀ k ∈ all, ∀ before ∈ k.path.inits, before ≠ k.path → before ∈ sections := by
    decide +kernel
  exact hall k k.mem_all before ((List.mem_inits _ _).2 h) hne

/-- What stands on the way to a section is a section. -/
theorem prefix_mem_sections {path before : List String} (hpath : path ∈ sections)
    (h : before <+: path) : before ∈ sections := by
  have hall : ∀ path ∈ sections, ∀ before ∈ path.inits, before ∈ sections := by decide +kernel
  exact hall path hpath before ((List.mem_inits _ _).2 h)

/-- The variable of a setting holds it. -/
theorem settingName?_variableName (k : SettingKey) :
    Variable.settingName? k.variableName = some k.name := by
  have hall : ∀ k ∈ all, Variable.settingName? k.variableName = some k.name := by decide +kernel
  exact hall k k.mem_all

/-- The name of a setting stands for its path. -/
theorem ofText_name (k : SettingKey) : PathStep.ofText k.name = k.path.map .name := by
  have hall : ∀ k ∈ all, PathStep.ofText k.name = k.path.map .name := by decide +kernel
  exact hall k k.mem_all

/-- The name of an outermost section stands for itself. -/
theorem ofText_of_mem_sections {name : String} (h : [name] ∈ sections) :
    PathStep.ofText name = [.name name] := by
  obtain rfl | rfl | rfl : name = "server" ∨ name = "database" ∨ name = "logging" := by
    simpa [sections] using h
  all_goals decide +kernel

/-- Every setting stands in a section. -/
theorem path_ne_singleton (k : SettingKey) (name : String) : k.path ≠ [name] := by
  cases k <;> exact nofun

theorem name_injective {k k' : SettingKey} (h : k.name = k'.name) : k = k' := by
  have hpath : k.path.map PathStep.name = k'.path.map PathStep.name := by
    rw [← ofText_name, ← ofText_name, h]
  have hinj : Function.Injective PathStep.name := fun _ _ heq => PathStep.name.inj heq
  exact eq_of_path_prefix (hinj.list_map hpath ▸ List.prefix_rfl)

end SettingKey

namespace Settings

/-- The value of a setting. -/
def value (s : Settings) : (k : SettingKey) → k.Value
  | .host => s.server.host
  | .port => s.server.port
  | .publicScheme => s.server.publicScheme
  | .requestTimeoutSeconds => s.server.requestTimeoutSeconds
  | .allowedOrigins => s.server.cors.allowedOrigins
  | .allowedMethods => s.server.cors.allowedMethods
  | .allowedHeaders => s.server.cors.allowedHeaders
  | .exposedHeaders => s.server.cors.exposedHeaders
  | .allowCredentials => s.server.cors.allowCredentials
  | .maxAgeSeconds => s.server.cors.maxAgeSeconds
  | .backend => s.database.backend
  | .url => s.database.url
  | .maxConnections => s.database.maxConnections
  | .minConnections => s.database.minConnections
  | .connectTimeoutSeconds => s.database.connectTimeoutSeconds
  | .idleTimeoutSeconds => s.database.idleTimeoutSeconds
  | .level => s.logging.level
  | .format => s.logging.format

/-- The settings with given values. -/
def ofValues (f : (k : SettingKey) → k.Value) : Settings where
  server := {
    host := f .host
    port := f .port
    publicScheme := f .publicScheme
    requestTimeoutSeconds := f .requestTimeoutSeconds
    cors := {
      allowedOrigins := f .allowedOrigins
      allowedMethods := f .allowedMethods
      allowedHeaders := f .allowedHeaders
      exposedHeaders := f .exposedHeaders
      allowCredentials := f .allowCredentials
      maxAgeSeconds := f .maxAgeSeconds } }
  database := {
    backend := f .backend
    url := f .url
    maxConnections := f .maxConnections
    minConnections := f .minConnections
    connectTimeoutSeconds := f .connectTimeoutSeconds
    idleTimeoutSeconds := f .idleTimeoutSeconds }
  logging := {
    level := f .level
    format := f .format }

theorem value_ofValues (f : (k : SettingKey) → k.Value) (k : SettingKey) :
    (ofValues f).value k = f k := by
  cases k <;> rfl

/-- Settings are their values. -/
theorem ext_value {s s' : Settings} (h : ∀ k, s.value k = s'.value k) : s = s' :=
  congrArg ofValues (funext h)

end Settings

end ExchangeCatalog
