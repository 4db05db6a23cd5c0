import ExchangeCatalog.Entity.Body
import ExchangeCatalog.Settings.Decode

/-!
# Faults

Everything that can go wrong while the service answers a request or starts is a fault, named for its
cause. Each fault belongs to one of eight kinds, and the kind decides the status of the response.

## Main definitions

* `FaultKind` — the kinds, with their names and statuses
* `Fault` — the causes, with `Fault.kind` and `Fault.message`
* `Report` — a kind and a message, as they are shown to a client or to an operator
-/

namespace ExchangeCatalog

/-- The kinds of faults. -/
inductive FaultKind
  | notFound
  | validation
  | conflict
  | internal
  | database
  | configuration
  | serialization
  | serviceUnavailable
  deriving DecidableEq, Repr

namespace FaultKind

/-- The name of a kind in responses. -/
def name : FaultKind → String
  | notFound => "NOT_FOUND"
  | validation => "VALIDATION"
  | conflict => "CONFLICT"
  | internal => "INTERNAL"
  | database => "DATABASE"
  | configuration => "CONFIGURATION"
  | serialization => "SERIALIZATION"
  | serviceUnavailable => "SERVICE_UNAVAILABLE"

/-- The status of a response to a request that failed so. -/
def status : FaultKind → Nat
  | validation => 400
  | notFound => 404
  | conflict => 409
  | serviceUnavailable => 503
  | internal | database | configuration | serialization => 500

end FaultKind

/-- What the repository was doing with the rows of an entity. -/
inductive Activity
  | find
  | count
  | list
  | create
  | update
  | delete
  deriving DecidableEq, Repr

/-- The statement that an activity failed, for the label of an entity. -/
def Activity.failure (label : String) : Activity → String
  | find => "Failed to find " ++ label
  | count => "Failed to count " ++ label ++ " rows"
  | list => "Failed to list " ++ label ++ " rows"
  | create => "Failed to create " ++ label
  | update => "Failed to update " ++ label
  | delete => "Failed to delete " ++ label

/-- What went wrong. -/
inductive Fault
  /-- No row of the entity has the identifier. -/
  | rowNotFound (label : String)
  /-- The identifier in the path is no integer. -/
  | invalidId (raw : String)
  /-- The identifier in the path does not decode to text. -/
  | illegibleId
  /-- A filter's value is none of its column's kind. -/
  | invalidFilter (kind : Kind) (value : String) (column : String)
  /-- A body came without the content type of JSON. -/
  | wrongContentType
  /-- A body is larger than the service takes. -/
  | bodyTooLarge
  /-- A body does not decode. -/
  | badBody (fault : BodyFault)
  /-- The database refused a statement because of a key. -/
  | conflict (label : String) (activity : Activity) (text : String)
  /-- The database failed otherwise, or its reply cannot be read. -/
  | database (label : String) (activity : Activity)
  /-- No connection to the database could be opened. -/
  | connection
  /-- The database does not answer the health probe. -/
  | unreachable
  /-- The database answers the health probe with another number. -/
  | unexpectedProbe (n : Int)
  /-- The configured address cannot be listened on. -/
  | bind (address : String)
  /-- The text that gives the settings cannot be read. -/
  | illegibleSettings
  /-- A file of the settings folder cannot be read. -/
  | illegibleSettingsFile
  /-- A setting cannot be used. -/
  | badSetting (fault : SettingFault)
  deriving DecidableEq, Repr

namespace Fault

/-- The kind of a fault. -/
def kind : Fault → FaultKind
  | rowNotFound _ => .notFound
  | invalidId _ | illegibleId | invalidFilter .. | wrongContentType | bodyTooLarge | badBody _ =>
    .validation
  | conflict .. => .conflict
  | database .. | connection => .database
  | unreachable | unexpectedProbe _ => .serviceUnavailable
  | bind _ => .internal
  | illegibleSettings | illegibleSettingsFile | badSetting _ => .configuration

/-- What a client is told about a body that does not decode. -/
def bodyMessage : BodyFault → String
  | .malformed => "Failed to parse the request body as JSON"
  | .content place fault =>
    "Failed to deserialize the JSON body into the target type: " ++ place.text ++ fault.message

/-- The wording of a fault. -/
def message : Fault → String
  | rowNotFound label => label ++ " not found"
  | invalidId raw => "Invalid id: " ++ raw
  | illegibleId => "Invalid URL: Invalid UTF-8 in `id`"
  | invalidFilter kind value column =>
    "Invalid " ++ kind.name ++ " value '" ++ value ++ "' for filter '" ++ column ++ "'"
  | wrongContentType => "Expected request with `Content-Type: application/json`"
  | bodyTooLarge => "Failed to buffer the request body: length limit exceeded"
  | badBody fault => bodyMessage fault
  | conflict label activity text => activity.failure label ++ ": " ++ text
  | database label activity => activity.failure label
  | connection => "Failed to connect to database"
  | unreachable => "Database is unreachable"
  | unexpectedProbe n => "Unexpected health probe result: " ++ String.ofList (Decimal.ofInt n)
  | bind address => "Failed to bind " ++ address
  | illegibleSettings => "Configuration error"
  | illegibleSettingsFile => "Failed to build config"
  | badSetting fault => "Failed to deserialize config: " ++ fault.message

/-- Whether a fault only wraps another, which a client is not told. -/
def hasSource : Fault → Bool
  | conflict .. | database .. | connection | unreachable | illegibleSettings => true
  | _ => false

end Fault

/-- A fault as it is shown: its kind, its wording, and whether another fault lies behind it. -/
structure Report where
  kind : FaultKind
  message : String
  hasSource : Bool
  deriving DecidableEq, Repr

namespace Report

/-- The report of a fault. -/
def ofFault (f : Fault) : Report := ⟨f.kind, f.message, f.hasSource⟩

/-- A report in one line. -/
def text (r : Report) : String := r.kind.name ++ ": " ++ r.message

/-- A copy of a report stands alone: what lies behind it is not copied. -/
def copy (r : Report) : Report := { r with hasSource := false }

/-- The body of a response that reports a fault. -/
def toJson (r : Report) : Json :=
  .object [("code", .integer r.kind.status), ("error", .string r.kind.name),
    ("message", .string r.message)]

end Report

/-- The parts of the service's surroundings whose faults are passed on. -/
inductive Surrounding
  | inputOutput
  | settings
  | json
  deriving DecidableEq, Repr

/-- The report of a fault that came from the surroundings with a text of its own. -/
def Surrounding.report (s : Surrounding) (text : String) : Report :=
  match s with
  | inputOutput => ⟨.internal, "I/O error: " ++ text, true⟩
  | settings => ⟨.configuration, "Configuration error: " ++ text, true⟩
  | json => ⟨.serialization, "JSON serialization error: " ++ text, true⟩

end ExchangeCatalog
