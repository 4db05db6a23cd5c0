import ExchangeCatalog.Settings.Basic
import ExchangeCatalog.Settings.Tree
import ExchangeCatalog.Text.Lowercase
import ExchangeCatalog.Text.Quoted

/-!
# Reading settings

Settings are forgiving about types: a number may be written as text, a truth value as a number or a
word, a text as anything without parts. A fault names the setting by its path, and the file it came
from where the value itself could not be converted.

## Main definitions

* `SettingProblem` — what is wrong with a setting
* `SettingFault`, `SettingFault.message` — the same with the setting's place
* `Setting.uint`, `Setting.boolean`, `Setting.text`, `Setting.texts` — the conversions
* `Settings.ofTree` — all settings of a tree, the built-in ones where it names none
-/

namespace ExchangeCatalog

/-- What a setting is, without its parts. -/
inductive SettingShape
  | plain (s : PlainSetting)
  | list
  | section
  deriving DecidableEq, Repr

/-- What is wrong with a setting. -/
inductive SettingProblem
  /-- Another type was expected. -/
  | wrongType (found : SettingShape) (expected : String)
  /-- A whole number lies below zero. -/
  | negative (n : Int)
  /-- A whole number needs more bits than there are. -/
  | tooLarge (n : UInt64) (bits : Nat)
  /-- A backend has another name. -/
  | unknownBackend (name : String)
  /-- A backend is neither named nor a section with its name alone. -/
  | unnamedBackend
  deriving DecidableEq, Repr

private def integerText (n : Int) : String := String.ofList (Decimal.ofInt n)

/-- A floating-point number with a point, when it is finite. -/
private def pointedText (x : Binary64) : String :=
  match x with
  | .finite .. => if x.positional.toList.contains '.' then x.positional else x.positional ++ ".0"
  | _ => x.positional

/-- What a message says it found. -/
def SettingShape.description : SettingShape → String
  | plain .missing => "unit value"
  | plain (.integer n) => "integer `" ++ integerText n ++ "`"
  | plain (.float x) => "floating point `" ++ pointedText x ++ "`"
  | plain (.boolean b) => "boolean `" ++ (if b then "true" else "false") ++ "`"
  | plain (.text s) => "string " ++ Text.quoted s
  | list => "sequence"
  | .section => "map"

/-- The wording of a problem. -/
def SettingProblem.message : SettingProblem → String
  | wrongType found expected => "invalid type: " ++ found.description ++ ", expected " ++ expected
  | negative n =>
    "invalid type: 64-bit integer `" ++ integerText n ++
      "`, expected an unsigned 64 bit or less integer"
  | tooLarge n bits =>
    "invalid type: 64-bit unsigned integer `" ++ String.ofList (Decimal.digits n.toNat) ++
      "`, expected an unsigned " ++ String.ofList (Decimal.digits bits) ++ " bit integer"
  | unknownBackend name => "enum DatabaseBackend does not have variant constructor " ++ name
  | unnamedBackend =>
    "value of enum DatabaseBackend should be represented by either string or table with " ++
      "exactly one key"

/-- Why settings are refused: what is wrong, where, and whence the value came if that is told. -/
structure SettingFault where
  problem : SettingProblem
  path : List PathStep
  origin : Option Origin
  deriving DecidableEq, Repr

namespace SettingFault

/-- The wording of a fault, with its place and origin. -/
def message (f : SettingFault) : String :=
  f.problem.message ++ (if f.path = [] then "" else " for key `" ++ PathStep.text f.path ++ "`") ++
    (match f.origin with
      | some (.file path) => " in " ++ path
      | some .environment => " in the environment"
      | _ => "")

/-- The fault seen from one step further out. -/
def under (step : PathStep) (f : SettingFault) : SettingFault := { f with path := step :: f.path }

end SettingFault

namespace Setting

/-- Where a setting came from. -/
def origin : Setting → Origin
  | plain o _ => o
  | list o _ => o
  | .section o _ => o

/-- What a setting is, without its parts. -/
def shape : Setting → SettingShape
  | plain _ s => .plain s
  | list .. => .list
  | .section .. => .section

/-- A setting of another type than was expected. -/
private def wrongType {α : Type} (s : Setting) (expected : String) (origin : Option Origin) :
    Except SettingFault α :=
  .error ⟨.wrongType s.shape expected, [], origin⟩

/-- A setting that cannot be converted, with its origin. -/
private def unconvertible {α : Type} (s : Setting) (expected : String) : Except SettingFault α :=
  s.wrongType expected (some s.origin)

/-- A floating-point number as an unsigned word: rounded, a half away from zero, and kept within
bounds; what is no number counts as zero. -/
def saturatedWord : Binary64 → UInt64
  | .notANumber => 0
  | .infinite negative => if negative then 0 else UInt64.ofNat (UInt64.size - 1)
  | .finite negative m e =>
    UInt64.ofNat (min (Binary64.roundAway negative m e).toNat (UInt64.size - 1))

/-- A setting as an unsigned word. -/
def uint (s : Setting) : Except SettingFault UInt64 :=
  match s with
  | plain o (.integer n) =>
    if 0 ≤ n then .ok (UInt64.ofNat n.toNat)
    else .error ⟨.negative n, [], some o⟩
  | plain _ (.float x) => .ok (saturatedWord x)
  | plain _ (.boolean b) => .ok (if b then 1 else 0)
  | plain _ (.text t) =>
    -- Words for truth values come first; none of them is a number.
    if ["true", "on", "yes"].contains (Text.lowercase t) then .ok 1
    else if ["false", "off", "no"].contains (Text.lowercase t) then .ok 0
    else match Decimal.uint64? t.toList with
      | some n => .ok n
      | none => s.unconvertible "an integer"
  | _ => s.unconvertible "an integer"

/-- A setting as an unsigned word of fewer bits. -/
def narrowUint (bits : Nat) (s : Setting) : Except SettingFault Nat := do
  let n ← s.uint
  if n.toNat < 1 <<< bits then .ok n.toNat
  else .error ⟨.tooLarge n bits, [], none⟩

/-- A setting as a truth value. A text counts in small letters, and a message shows it so. -/
def boolean (s : Setting) : Except SettingFault Bool :=
  match s with
  | plain _ (.boolean b) => .ok b
  | plain _ (.integer n) => .ok (n != 0)
  | plain _ (.float x) => .ok (!x.isZero)
  | plain o (.text t) =>
    let word := Text.lowercase t
    if ["1", "true", "on", "yes"].contains word then .ok true
    else if ["0", "false", "off", "no"].contains word then .ok false
    else (plain o (.text word)).unconvertible "a boolean"
  | _ => s.unconvertible "a boolean"

/-- A setting as a text. -/
def text (s : Setting) : Except SettingFault String :=
  match s with
  | plain _ (.text t) => .ok t
  | plain _ (.integer n) => .ok (integerText n)
  | plain _ (.float x) => .ok x.positional
  | plain _ (.boolean b) => .ok (if b then "true" else "false")
  | _ => s.unconvertible "a string"

/-- Settings as texts, from the given position on. -/
def textsFrom (i : Nat) : List Setting → Except SettingFault (List String)
  | [] => .ok []
  | s :: ss => do
    let t ← s.text.mapError (SettingFault.under (.index i))
    .ok (t :: (← textsFrom (i + 1) ss))

/-- A setting as a list of texts. -/
def texts (s : Setting) : Except SettingFault (List String) :=
  match s with
  | list _ items => textsFrom 0 items
  | s => s.wrongType "a sequence" none

/-- A setting as the choice of a backend: its name, or a section with its name alone. -/
def backend (s : Setting) : Except SettingFault BackendChoice :=
  let named := fun (name : String) =>
    if name = "postgres" then .ok .postgres
    else if name = "memory" then .ok .memory
    else .error ⟨.unknownBackend name, [], none⟩
  match s with
  | plain _ (.text t) => named t
  | .section _ [(name, _)] => named name
  | _ => .error ⟨.unnamedBackend, [], none⟩

/-- The setting at a position of a section, which names it or, as a list, gives the settings in
order. -/
def part? (s : Setting) (i : Nat) (name : String) : Option (PathStep × Setting) :=
  match s with
  | .section _ es => (find? name es).map fun v => (.name name, v)
  | list _ items => items[i]?.map fun v => (.index i, v)
  | plain .. => none

/-- One part of a section, converted; the built-in value when the section does not have it. -/
def part {α : Type} (s : Setting) (i : Nat) (name : String) (usual : α)
    (convert : Setting → Except SettingFault α) : Except SettingFault α :=
  match s.part? i name with
  | some (step, v) => (convert v).mapError (SettingFault.under step)
  | none => .ok usual

/-- A section or a list in its place; anything else is refused. -/
def asSection (s : Setting) (name : String) : Except SettingFault Setting :=
  match s with
  | plain .. => s.wrongType ("struct " ++ name) none
  | s => .ok s

end Setting

namespace Settings

open Setting

/-- The settings for cross-origin requests. -/
def corsOf (s : Setting) : Except SettingFault CorsSettings := do
  let s ← s.asSection "CorsConfig"
  let usual : CorsSettings := {}
  .ok {
    allowedOrigins := ← s.part 0 "allowed_origins" usual.allowedOrigins texts
    allowedMethods := ← s.part 1 "allowed_methods" usual.allowedMethods texts
    allowedHeaders := ← s.part 2 "allowed_headers" usual.allowedHeaders texts
    exposedHeaders := ← s.part 3 "exposed_headers" usual.exposedHeaders texts
    allowCredentials := ← s.part 4 "allow_credentials" usual.allowCredentials boolean
    maxAgeSeconds := ← s.part 5 "max_age_seconds" usual.maxAgeSeconds uint }

/-- The settings of the server. -/
def serverOf (s : Setting) : Except SettingFault ServerSettings := do
  let s ← s.asSection "ServerConfig"
  let usual : ServerSettings := {}
  .ok {
    host := ← s.part 0 "host" usual.host text
    port := ← s.part 1 "port" usual.port fun v => (v.narrowUint 16).map UInt16.ofNat
    publicScheme := ← s.part 2 "public_scheme" usual.publicScheme text
    requestTimeoutSeconds := ← s.part 3 "request_timeout_seconds" usual.requestTimeoutSeconds uint
    cors := ← s.part 4 "cors" usual.cors corsOf }

/-- The settings of the database. -/
def databaseOf (s : Setting) : Except SettingFault DatabaseSettings := do
  let s ← s.asSection "DatabaseConfig"
  let usual : DatabaseSettings := {}
  .ok {
    backend := ← s.part 0 "backend" usual.backend backend
    url := ← s.part 1 "url" usual.url text
    maxConnections := ← s.part 2 "max_connections" usual.maxConnections fun v =>
      (v.narrowUint 32).map UInt32.ofNat
    minConnections := ← s.part 3 "min_connections" usual.minConnections fun v =>
      (v.narrowUint 32).map UInt32.ofNat
    connectTimeoutSeconds := ← s.part 4 "connect_timeout_seconds" usual.connectTimeoutSeconds uint
    idleTimeoutSeconds := ← s.part 5 "idle_timeout_seconds" usual.idleTimeoutSeconds uint }

/-- The settings of the log. -/
def loggingOf (s : Setting) : Except SettingFault LoggingSettings := do
  let s ← s.asSection "LoggingConfig"
  let usual : LoggingSettings := {}
  .ok {
    level := ← s.part 0 "level" usual.level text
    format := ← s.part 1 "format" usual.format text }

/-- All settings of a tree. -/
def ofTree (s : Setting) : Except SettingFault Settings := do
  let usual : Settings := {}
  .ok {
    server := ← s.part 0 "server" usual.server serverOf
    database := ← s.part 1 "database" usual.database databaseOf
    logging := ← s.part 2 "logging" usual.logging loggingOf }

end Settings

end ExchangeCatalog
