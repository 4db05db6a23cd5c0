import ExchangeCatalog.Fault
import ExchangeCatalog.Settings.Decode
import ExchangeCatalog.Settings.Folder
import ExchangeCatalog.Settings.Variable

/-!
# Loading settings

The server loads its settings from two files of a folder and from the environment: a file of
defaults, a file named for the environment that the server runs in, and variables, the later over
the earlier. Either file may be missing. Settings can also be given as one text.

## Main definitions

* `LoadFailure` — why settings cannot be loaded
* `Settings.ofText` — the settings of one text
* `Settings.load` — the settings of two files and of variables
* `Settings.toJson` — settings as a value
-/

namespace ExchangeCatalog

/-- Why settings cannot be loaded. -/
inductive LoadFailure
  | fault (f : Fault)
  /-- A path asks for a place in a list that is longer than any list; the program stops there. -/
  | listTooLong
  deriving DecidableEq, Repr

namespace Settings

/-- The settings of layers. -/
def ofLayers (layers : List Setting.Layer) : Except LoadFailure Settings :=
  match Setting.layered? layers with
  | some tree => (ofTree tree).mapError fun f => .fault (.badSetting f)
  | none => .error .listTooLong

/-- The settings that a text gives. -/
def ofText (text : String) : Except LoadFailure Settings :=
  match FileFormat.toml.layer? .unnamed text with
  | some layer => ofLayers [layer]
  | none => .error (.fault .illegibleSettings)

/-- The settings for an environment, from the files of the settings folder and from variables. The
text at a path is given by `fileAt?`. -/
def load (environment : String) (fileAt? : String → Option String) (vars : List (String × String)) :
    Except LoadFailure Settings :=
  match ["default", environment].mapM (Folder.layer? fileAt?) with
  | some layers => ofLayers (layers ++ [Variable.layer vars])
  | none => .error (.fault .illegibleSettingsFile)

private def texts (ss : List String) : Json := .array (ss.map .string)

/-- Settings as a value. -/
def toJson (s : Settings) : Json :=
  .object [
    ("server", .object [("host", .string s.server.host), ("port", .integer s.server.port.toNat),
      ("public_scheme", .string s.server.publicScheme),
      ("request_timeout_seconds", .integer s.server.requestTimeoutSeconds.toNat),
      ("cors", .object [("allowed_origins", texts s.server.cors.allowedOrigins),
        ("allowed_methods", texts s.server.cors.allowedMethods),
        ("allowed_headers", texts s.server.cors.allowedHeaders),
        ("exposed_headers", texts s.server.cors.exposedHeaders),
        ("allow_credentials", .bool s.server.cors.allowCredentials),
        ("max_age_seconds", .integer s.server.cors.maxAgeSeconds.toNat)])]),
    ("database", .object [
      ("backend", .string (match s.database.backend with
        | .postgres => "postgres"
        | .memory => "memory")),
      ("url", .string s.database.url),
      ("max_connections", .integer s.database.maxConnections.toNat),
      ("min_connections", .integer s.database.minConnections.toNat),
      ("connect_timeout_seconds", .integer s.database.connectTimeoutSeconds.toNat),
      ("idle_timeout_seconds", .integer s.database.idleTimeoutSeconds.toNat)]),
    ("logging", .object [("level", .string s.logging.level), ("format", .string s.logging.format)])]

end Settings

end ExchangeCatalog
