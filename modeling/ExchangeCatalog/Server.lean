import ExchangeCatalog.Http.Application
import ExchangeCatalog.Settings.Load
import ExchangeCatalog.Sql.Address

/-!
# Starting the server

The server starts in four steps, of which the first that fails decides how it ends: its settings are
loaded, the database is reached if rows are kept there, the application is put together, and the
address is listened on. A server that listens runs until it is interrupted.

## Main definitions

* `Surroundings` — what the server finds around it
* `Ending` — how a server ends, with `Ending.exitCode`
* `Server.run` — the ending of a server with given settings
-/

namespace ExchangeCatalog

/-- What a server finds around it. -/
structure Surroundings where
  /-- The replies of the database at an address, when there is one. -/
  database : String → Option (List Reply)
  /-- Whether an address can be listened on. -/
  isFree : String → Bool

/-- How a server ends. -/
inductive Ending
  /-- It ran until it was interrupted. -/
  | stopped
  /-- It could not run. -/
  | failed (fault : Fault)
  /-- The application could not be put together. -/
  | crashed
  deriving DecidableEq, Repr

/-- The exit code of a server's program. -/
def Ending.exitCode : Ending → Nat
  | stopped => 0
  | failed _ => 1
  | crashed => 101

namespace Server

/-- The address that a server listens on. -/
def listenAddress (s : Settings) : String :=
  s.server.host ++ ":" ++ String.ofList (Decimal.digits s.server.port.toNat)

/-- The first connection to the database of the settings. No connection comes about when none is
allowed or when no time is given. -/
def connect? (s : Settings) (w : Surroundings) : Option Connection :=
  -- Waiting for a connection ends before it is there.
  if s.database.maxConnections = 0 ∨ s.database.connectTimeoutSeconds = 0 then none
  else (w.database s.database.url).bind Connection.open?

/-- Puts the application together and listens. -/
def listen (s : Settings) (w : Surroundings) : Ending :=
  if ¬ (Application.ofSettings s).IsUsable then .crashed
  else if w.isFree (listenAddress s) then .stopped
  else .failed (.bind (listenAddress s))

/-- A waiting time in seconds that ends beyond the range of the clock, whatever it shows. -/
def endlessSeconds : UInt64 := 0x7FFFFFFFFFFFFFFF

/-- The ending of a server with given settings. The end of the waiting time is worked out before
anything is sent to the database, but after its address is read. -/
def run (s : Settings) (w : Surroundings) : Ending :=
  match s.database.backend with
  | .memory => listen s w
  | .postgres =>
    if ¬ namesScheme s.database.url then .failed .connection
    else if endlessSeconds ≤ s.database.connectTimeoutSeconds then .crashed
    else if (connect? s w).isSome then listen s w
    else .failed .connection

/-- What the program says when it cannot load its settings. -/
def loadFailure (f : Fault) : String := "Failed to load configuration: " ++ (Report.ofFault f).text

end Server

end ExchangeCatalog
