import ExchangeCatalog.Catalog
import ExchangeCatalog.Http.Cors
import ExchangeCatalog.Http.Routes
import ExchangeCatalog.Repository.Memory
import ExchangeCatalog.Repository.Sql
import ExchangeCatalog.Sql.Connection

/-!
# The application

The application puts the routes of its entities together with a health report, under one
cross-origin policy. It runs on stores in memory, one for each route, or on a database that all
routes share. A request reaches at most one route, and so at most one store.

## Main definitions

* `Application` — the routes, the policy and what they need
* `Application.onMemory`, `Application.onDatabase` — the response to a request and the state after
  it
-/

namespace ExchangeCatalog

/-- The version that the health report names. -/
def version : String := "0.1.0"

/-- The health report: whether the backend answers, and how. For how long the server has been up is
left out, since no time passes here. -/
def healthResponse (backend : Except Fault String) : Response :=
  let (status, word, database) : Nat × String × String := match backend with
    | .ok name => (200, "ok", name)
    | .error _ => (503, "degraded", "unreachable")
  .json status (.object [("status", .string word), ("version", .string version),
    ("database", .string database)])

/-- A path under which an entity is served, with what is kept for it. -/
structure Mount (σ : Entity → Type) where
  base : String
  entity : Entity
  state : σ entity

/-- What the application is made of, besides its state. The limit on the time that a request may
take is no part of it, nor is the status 408 of a request that takes longer: here every request is
answered at once. -/
structure Application where
  /-- The scheme of links. -/
  scheme : String
  /-- The cross-origin policy, if there is one. -/
  cors : Option CorsPolicy
  /-- Whether the health report is served. -/
  reportsHealth : Bool

/-- The path of the health report. -/
def healthPath : String := "/health"

namespace Application

/-- The application of a server with settings. -/
def ofSettings (s : Settings) : Application where
  scheme := s.server.publicScheme
  cors := some (.ofSettings s.server.cors)
  reportsHealth := true

/-- The application can be put together. -/
def IsUsable (app : Application) : Prop := ∀ p ∈ app.cors, p.IsUsable

instance (app : Application) : Decidable app.IsUsable := by unfold IsUsable; infer_instance

/-- A response in its last form: under the cross-origin policy, and without a body for a request
that wants none. -/
def complete (app : Application) (r : Request) (answer : Response) : Response :=
  let answer := match app.cors with
    | some p => p.apply r answer
    | none => answer
  if r.method = "HEAD" then { answer with body := none } else answer

/-- Whether a request only reads what its path names. -/
def isRead (r : Request) : Bool := r.method == "GET" || r.method == "HEAD"

/-- The response to a request that wants more from the health report than to read it. -/
def healthRefusal : Response := .methodNotAllowed "GET,HEAD"

/-- Whether a request is for the health report. -/
def asksHealth (app : Application) (r : Request) : Bool :=
  app.reportsHealth && r.target.path == healthPath

/-- Stores in memory, each under its path. -/
abbrev Stores := List (Mount MemoryStore)

/-- Empty stores for the routes of the catalog. -/
def emptyStores : Stores := Catalog.routes.map fun (base, e) => ⟨base, e, .empty⟩

/-- The response of the first route whose path fits, and the stores after it. -/
def serveStores (scheme : String) (r : Request) : Stores → Response × Stores
  | [] => (.empty 404, [])
  | m :: ms =>
    match placeOf? m.base r.target.path with
    | some place =>
      let (answer, store) := m.state.run (m.entity.respond scheme place r)
      (answer, ⟨m.base, m.entity, store⟩ :: ms)
    | none =>
      let (answer, ms) := serveStores scheme r ms
      (answer, m :: ms)

/-- The response to a request on stores in memory, and the stores after it. -/
def onMemory (app : Application) (r : Request) (stores : Stores) : Response × Stores :=
  let r := { r with target := r.target.trimmed }
  if app.asksHealth r then
    (app.complete r (if isRead r then healthResponse (.ok "memory") else healthRefusal), stores)
  else
    let (answer, stores) := serveStores app.scheme r stores
    (app.complete r answer, stores)

/-- The entity of the first route whose path fits, and the place that the path names. -/
def routeOf? (routes : List (String × Entity)) (path : String) : Option (Entity × Place) :=
  routes.findSome? fun (base, e) => (placeOf? base path).map fun place => (e, place)

/-- The statements for a request to the application on a database, and its response. -/
def statementPlan (app : Application) (routes : List (String × Entity)) (r : Request) :
    StatementPlan Response :=
  let r := { r with target := r.target.trimmed }
  let answer : StatementPlan Response :=
    if app.asksHealth r then
      if isRead r then
        SqlRepository.probe.bind fun p => .done (healthResponse (p.map fun _ => "connected"))
      else .done healthRefusal
    else
      match routeOf? routes r.target.path with
      | some (e, place) => (e.respond app.scheme place r).through SqlRepository.answer
      | none => .done (.empty 404)
  answer.bind fun a => .done (app.complete r a)

/-- The response to a request on a database, and the connection after it. -/
def onDatabase (app : Application) (routes : List (String × Entity)) (r : Request)
    (c : Connection) : Response × Connection :=
  (app.statementPlan routes r).run Connection.send c

end Application

end ExchangeCatalog
