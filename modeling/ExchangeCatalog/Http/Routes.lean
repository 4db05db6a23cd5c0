import ExchangeCatalog.Http.ListRequest
import ExchangeCatalog.Http.MediaType
import ExchangeCatalog.Page.Links
import ExchangeCatalog.Service
import ExchangeCatalog.Text.Percent

/-!
# Routes of an entity

Each entity is served under a path of its own: the list of its rows, and below it each row by its
identifier. What a request asks of the service, and how the service's answer becomes a response, is
a plan over the questions to the repository. Of several faults the one met first decides: the
identifier is read before the body, and the body before any row.

## Main definitions

* `Place`, `placeOf?` — the list or a row, as a path names it under a base
* `readId`, `readJsonBody` — the identifier and the body of a request
* `Entity.respond` — the response to a request at a place
-/

namespace ExchangeCatalog

/-- What a path names under the base of an entity. -/
inductive Place
  | collection
  | item (segment : String)
  deriving DecidableEq, Repr

/-- The place that a path names under a base. The path is compared as it stands, without
decoding. -/
def placeOf? (base path : String) : Option Place :=
  let root := base.toList ++ "/api/v1".toList
  let cs := path.toList
  if cs = root then some .collection
  else if (root ++ ['/']).isPrefixOf cs then
    -- The rest of the path is one segment, and not an empty one.
    let segment := cs.drop (root.length + 1)
    if segment = [] ∨ segment.contains '/' then none else some (.item (String.ofList segment))
  else none

/-- An identifier in decoded text. -/
def readId (raw : String) : Except Fault Int64 :=
  match Decimal.int64? raw.toList with
  | some id => .ok id
  | none => .error (.invalidId raw)

/-- The identifier that a segment of a path stands for. -/
def idOfSegment (segment : String) : Except Fault Int64 :=
  match Utf8.decode? (Percent.decode (Utf8.encode segment)) with
  | some raw => readId raw
  | none => .error .illegibleId

/-- The largest body that the service takes, in bytes. -/
def bodyLimit : Nat := 2097152

/-- The body of a request, decoded: its content type is looked at first, then its size. -/
def readJsonBody {α : Type} (r : Request) (decode : List UInt8 → Except BodyFault α) :
    Except Fault α :=
  if ¬ r.hasJsonBody then .error .wrongContentType
  else if bodyLimit < r.body.length then .error .bodyTooLarge
  else (decode r.body).mapError .badBody

/-- The response that reports a fault. -/
def faultResponse (f : Fault) : Response := .json f.kind.status (Report.ofFault f).toJson

/-- The list request that a request makes. -/
def Request.listRequest (r : Request) : ListRequest :=
  ListRequest.ofPairs (Percent.formPairs (r.target.query.getD "")) r.host r.target.pathAndQuery

/-- A plan over the questions to the repository that ends with a response. -/
abbrev Exchange (e : Entity) := Plan (Call e) Call.Answer Response

namespace Entity

variable (e : Entity)

/-- The response to what a session of the service ends with. -/
def finish {α : Type} (render : α → Response) (s : Session e α) : Exchange e :=
  s.bind fun r =>
    .done (match r with
      | .ok a => render a
      | .error fault => faultResponse fault)

/-- A session that needs something which may be a fault already. -/
def needing {α β : Type} (r : Except Fault α) (next : α → Session e β) : Session e β :=
  match r with
  | .ok a => next a
  | .error fault => .done (.error fault)

/-- The response with a page of rows. A page whose successor has no number is linked to no other
page. -/
def pageResponse (scheme : String) (q : ListRequest) (page : Page (Row e)) : Response :=
  let facts := Pagination.compute q.page page.total
  let linked := (facts.withLinks? (q.url scheme)).getD facts
  .json 200 (envelope linked (page.items.map Row.toJson))

/-- The response with one row. -/
def rowResponse (status : Nat) (row : Row e) : Response := .json status row.toJson

/-- A list of rows. -/
def listExchange (scheme : String) (r : Request) : Exchange e :=
  let q := r.listRequest
  e.finish (e.pageResponse scheme q) (Service.list q.predicates q.page)

/-- A new row. -/
def createExchange (r : Request) : Exchange e :=
  e.finish (e.rowResponse 201) (e.needing (readJsonBody r e.readRecord) Service.create)

/-- The row of an identifier. -/
def getExchange (segment : String) : Exchange e :=
  e.finish (e.rowResponse 200) (e.needing (idOfSegment segment) Service.get)

/-- The row of an identifier, with the record of the body. -/
def replaceExchange (segment : String) (r : Request) : Exchange e :=
  e.finish (e.rowResponse 200) (e.needing (idOfSegment segment) fun id =>
    e.needing (readJsonBody r e.readRecord) (Service.replace id))

/-- The row of an identifier, with the changes of the body. -/
def patchExchange (segment : String) (r : Request) : Exchange e :=
  e.finish (e.rowResponse 200) (e.needing (idOfSegment segment) fun id =>
    e.needing (readJsonBody r e.readPatch) (Service.patch id))

/-- The end of a row. -/
def deleteExchange (segment : String) : Exchange e :=
  e.finish (fun _ => .empty 204) (e.needing (idOfSegment segment) Service.delete)

/-- The response to a request at a place of the entity, without regard to whether a body is
wanted. -/
def respond (scheme : String) (place : Place) (r : Request) : Exchange e :=
  match place with
  | .collection =>
    match r.method with
    | "GET" | "HEAD" => e.listExchange scheme r
    | "POST" => e.createExchange r
    | _ => .done (.methodNotAllowed "GET,HEAD,POST")
  | .item segment =>
    match r.method with
    | "GET" | "HEAD" => e.getExchange segment
    | "PUT" => e.replaceExchange segment r
    | "PATCH" => e.patchExchange segment r
    | "DELETE" => e.deleteExchange segment
    | _ => .done (.methodNotAllowed "GET,HEAD,PUT,PATCH,DELETE")

end Entity

/-- The catalog of an entity in a log. -/
def catalogDescription (e : Entity) (scheme : String) : String :=
  "CatalogState \x7b table: " ++ Text.quoted e.table ++ ", public_scheme: " ++ Text.quoted scheme ++
    " \x7d"

end ExchangeCatalog
