import ExchangeCatalog.Json.Printer
import ExchangeCatalog.Server
import Std.Async.DNS
import Std.Async.Signal
import Std.Http.Server

/-!
# The program

The server takes no arguments. It reads its settings from the folder `config` and from the variables
of its environment, listens, and runs until it is interrupted. It has no client for a database, so
settings that ask for one end it at once.

## Main definitions

* `Program.RunningServer` — the application with the stores that it runs on
* `Program.serve` — listens and waits for the end
-/

namespace ExchangeCatalog.Program

open Std Async

/-- The variables of the environment. -/
def environmentVariables : IO (List (String × String)) := do
  let bytes ← IO.FS.readBinFile "/proc/self/environ"
  let entries := Text.pieces '\x00' (Utf8.decodeLossy bytes.toList).toList
  return (entries.filterMap (Text.cutFirst? '=')).map fun (name, value) =>
    (String.ofList name, String.ofList value)

/-- The settings files that are asked for by a name, as paths with texts. -/
def settingsFiles (name : String) : IO (List (String × String)) := do
  let found ← (Folder.places name).mapM fun (path, _) => do
    try
      return [(path, Utf8.decodeLossy (← IO.FS.readBinFile path).toList)]
    catch _ => return []
  return found.flatten

/-- The application with the stores that it runs on, which one request at a time may change. -/
structure RunningServer where
  application : Application
  stores : Mutex Application.Stores

/-- A request as the application takes it. -/
def requestOf (head : Http.Request.Head) (body : ByteArray) : Request where
  method := toString head.method
  target := .parse (toString head.uri)
  headers := head.headers.toList.map fun (name, value) => (name.value, value.value)
  body := body.toList

/-- A response as it is sent. -/
def sendable (r : Response) : Async (Http.Response Http.Body.Full) :=
  let status := (Http.Status.ofCode none (UInt16.ofNat r.status)).getD .internalServerError
  let head :=
    r.headers.foldl (fun b h => (b.header? h.1 h.2).getD b) (Http.Response.new.status status)
  head.fromBytes (((r.body.map Json.render).getD "").toUTF8)

instance : Http.Server.Handler RunningServer where
  onRequest server r := do
    let body : ByteArray ← r.body.readAll
    let answer ← server.stores.atomically do
      modifyGet (server.application.onMemory (requestOf r.line body))
    sendable answer

/-- The address that settings ask to listen on. -/
def socketAddress (s : ServerSettings) : Async Net.SocketAddress := do
  let found : Array Net.IPAddr ← DNS.getAddrInfo s.host ""
  match found.toList with
  | .v4 ip :: _ => return .v4 ⟨ip, s.port⟩
  | .v6 ip :: _ => return .v6 ⟨ip, s.port⟩
  | [] => throw (IO.userError "no such host")

/-- Listens and waits for an interruption. -/
def serve (s : Settings) : Async Unit := do
  let address ← socketAddress s.server
  let stores ← Mutex.new Application.emptyStores
  let server ← Http.Server.serve address (RunningServer.mk (.ofSettings s) stores)
  let interruption ← Signal.Waiter.mk .sigint false
  let _ ← await (← interruption.wait)
  server.shutdownAndWait

/-- What the program finds around it. -/
def surroundings (isFree : Bool) : Surroundings := ⟨fun _ => none, fun _ => isFree⟩

/-- Runs the server to its end. -/
def run (s : Settings) : IO Ending := do
  match Server.run s (surroundings true) with
  | .stopped =>
    try
      Async.block (serve s)
      return .stopped
    catch _ => return Server.run s (surroundings false)
  | ending => return ending

end ExchangeCatalog.Program

open ExchangeCatalog in
/-- Runs the server; the exit code says how it ended. -/
def main : IO UInt32 := do
  let environment := (← IO.getEnv "IBROKER_ENV").getD "development"
  let files := (← Program.settingsFiles "default") ++ (← Program.settingsFiles environment)
  match Settings.load environment (files.lookup ·) (← Program.environmentVariables) with
  | .ok settings => return UInt32.ofNat (← Program.run settings).exitCode
  | .error (.fault fault) =>
    IO.eprintln (Server.loadFailure fault)
    return 1
  | .error .listTooLong => return UInt32.ofNat Ending.crashed.exitCode
