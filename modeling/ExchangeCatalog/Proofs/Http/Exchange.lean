import ExchangeCatalog.Http.Routes
import ExchangeCatalog.Proofs.Service.Operation

/-!
# Requests to an entity as operations

A request at a place of an entity is refused at once, or it asks the service for one operation,
whose answer becomes the response. What a request asks for does not depend on any row, so everything
that is known of the six operations carries over to requests.

## Main definitions

* `Response.IsFailure`, `Response.Reports` — a response that tells of a failure, and the form it has
* `Response.IsRefusal` — the responses to requests that ask for no operation
* `Entity.asked` — the operation that a request asks for, or the response that refuses it
* `Service.Operation.response`, `Service.Operation.conclude` — the response to an operation

## Main results

* `Entity.respond_eq` — a request is answered by its operation
* `Entity.run_respond` — the response to a request on a store in memory, and the store after it
* `Entity.isRefusal_of_asked`, `Service.Operation.isFailure_conclude_iff` — which responses tell of
  a failure
* `Entity.run_respond_of_isFailure`, `Entity.run_respond_of_isRead` — the requests that leave the
  store as it is
-/

namespace ExchangeCatalog

open Service (Operation serve)

/-- The response tells the client that its request failed. -/
def Response.IsFailure (answer : Response) : Prop := 400 ≤ answer.status

theorem FaultKind.le_status (kind : FaultKind) : 400 ≤ kind.status := by
  cases kind with
  | _ => decide

theorem isFailure_faultResponse (fault : Fault) : (faultResponse fault).IsFailure :=
  fault.kind.le_status

/-- The response reports a fault: its body names the status, the kind and what went wrong. -/
structure Response.Reports (answer : Response) (kind : FaultKind) (message : String) : Prop where
  status : answer.status = kind.status
  body : answer.body =
    some (.object [("code", .integer answer.status), ("error", .string kind.name),
      ("message", .string message)])

theorem reports_faultResponse (fault : Fault) :
    (faultResponse fault).Reports fault.kind fault.message :=
  ⟨rfl, rfl⟩

/-- The response refuses a request before anything is asked of the service. -/
inductive Response.IsRefusal : Response → Prop
  | fault (fault : Fault) : IsRefusal (faultResponse fault)
  | method (allowed : String) : IsRefusal (.methodNotAllowed allowed)

theorem Response.IsRefusal.isFailure {answer : Response} (h : answer.IsRefusal) :
    answer.IsFailure := by
  cases h with
  | fault fault => exact isFailure_faultResponse fault
  | method allowed => exact show 400 ≤ 405 by decide

variable {e : Entity}

namespace Service.Operation

/-- The response to an operation that went well. -/
def response (scheme : String) (r : Request) : (op : Operation e) → op.Result → Response
  | list .., page => e.pageResponse scheme r.listRequest page
  | create _, row => e.rowResponse 201 row
  | get _, row | replace .., row | patch .., row => e.rowResponse 200 row
  | delete _, _ => .empty 204

/-- The response to an operation, however it went. -/
def conclude (scheme : String) (r : Request) (op : Operation e) : op.Answer → Response
  | .ok result => op.response scheme r result
  | .error fault => faultResponse fault

/-- The status of a response to an operation that went well. -/
def successStatus : Operation e → Nat
  | create _ => 201
  | delete _ => 204
  | list .. | get _ | replace .. | patch .. => 200

theorem status_response (scheme : String) (r : Request) (op : Operation e) (result : op.Result) :
    (op.response scheme r result).status = op.successStatus := by
  cases op with
  | _ => rfl

/-- The response tells of a failure exactly when the operation failed. -/
theorem isFailure_conclude_iff {scheme : String} {r : Request} {op : Operation e}
    {answer : op.Answer} :
    (op.conclude scheme r answer).IsFailure ↔ ∃ fault, answer = .error fault := by
  cases answer with
  | ok result =>
    have hsuccess : op.successStatus < 400 := by cases op <;> simp [successStatus]
    simp [conclude, Response.IsFailure, status_response, hsuccess]
  | error fault => simp [conclude, isFailure_faultResponse]

end Service.Operation

namespace Entity

variable (e)

/-- What a request asks for at a place, or the fault of its path or body: the identifier is read
before the body. A method that the place does not have is answered with those that it has. -/
def asked (place : Place) (r : Request) : Except Response (Operation e) :=
  match place with
  | .collection =>
    match r.method with
    | "GET" | "HEAD" => .ok (.list r.listRequest.predicates r.listRequest.page)
    | "POST" => do
      let record ← (readJsonBody r e.readRecord).mapError faultResponse
      .ok (.create record)
    | _ => .error (.methodNotAllowed "GET,HEAD,POST")
  | .item segment =>
    match r.method with
    | "GET" | "HEAD" => do
      let id ← (idOfSegment segment).mapError faultResponse
      .ok (.get id)
    | "PUT" => do
      let id ← (idOfSegment segment).mapError faultResponse
      let record ← (readJsonBody r e.readRecord).mapError faultResponse
      .ok (.replace id record)
    | "PATCH" => do
      let id ← (idOfSegment segment).mapError faultResponse
      let changes ← (readJsonBody r e.readPatch).mapError faultResponse
      .ok (.patch id changes)
    | "DELETE" => do
      let id ← (idOfSegment segment).mapError faultResponse
      .ok (.delete id)
    | _ => .error (.methodNotAllowed "GET,HEAD,PUT,PATCH,DELETE")

/-- The exchange of a request that has been refused, or asks for an operation. -/
def exchangeOf (scheme : String) (r : Request) : Except Response (Operation e) → Exchange e
  | .ok op => op.session.bind fun answer => .done (op.conclude scheme r answer)
  | .error answer => .done answer

variable {e}

variable {scheme : String} {r : Request}

/-- What a session asks for once something is known that may be a fault. -/
theorem finish_needing {α β : Type} {render : β → Response} {next : α → Session e β}
    {op : α → Except Response (Operation e)} (x : Except Fault α)
    (h : ∀ a, e.finish render (next a) = e.exchangeOf scheme r (op a)) :
    e.finish render (e.needing x next) =
      e.exchangeOf scheme r ((x.mapError faultResponse).bind op) := by
  cases x with
  | ok a => exact h a
  | error fault => rfl

theorem finish_response (op : Operation e) :
    e.finish (op.response scheme r) op.session = e.exchangeOf scheme r (.ok op) := by
  rw [finish, exchangeOf]
  congr
  funext answer
  cases answer with
  | ok result => rfl
  | error fault => rfl

/-- A request is answered by its operation. -/
theorem respond_eq (scheme : String) (place : Place) (r : Request) :
    e.respond scheme place r = e.exchangeOf scheme r (e.asked place r) := by
  cases place with
  | collection =>
    by_cases hget : r.method = "GET"
    · simp only [respond, asked, hget]
      exact finish_response (.list _ _)
    by_cases hhead : r.method = "HEAD"
    · simp only [respond, asked, hhead]
      exact finish_response (.list _ _)
    by_cases hpost : r.method = "POST"
    · simp only [respond, asked, hpost]
      exact finish_needing _ fun record => finish_response (.create record)
    · simp only [respond, asked, *]
      rfl
  | item segment =>
    by_cases hget : r.method = "GET"
    · simp only [respond, asked, hget]
      exact finish_needing _ fun id => finish_response (.get id)
    by_cases hhead : r.method = "HEAD"
    · simp only [respond, asked, hhead]
      exact finish_needing _ fun id => finish_response (.get id)
    by_cases hput : r.method = "PUT"
    · simp only [respond, asked, hput]
      exact finish_needing _ fun id => finish_needing _ fun record =>
        finish_response (.replace id record)
    by_cases hpatch : r.method = "PATCH"
    · simp only [respond, asked, hpatch]
      exact finish_needing _ fun id => finish_needing _ fun changes =>
        finish_response (.patch id changes)
    by_cases hdelete : r.method = "DELETE"
    · simp only [respond, asked, hdelete]
      exact finish_needing _ fun id => finish_response (.delete id)
    · simp only [respond, asked, *]
      rfl

variable {place : Place} {answer : Response}

/-- Waiting for something which may be a fault is refused with it, or later. -/
theorem isRefusal_of_bind {α : Type} {x : Except Fault α}
    {next : α → Except Response (Operation e)}
    (hnext : ∀ a, next a = .error answer → answer.IsRefusal)
    (h : (x.mapError faultResponse).bind next = .error answer) : answer.IsRefusal := by
  cases x with
  | ok a => exact hnext a h
  | error fault =>
    cases h
    exact .fault fault

/-- A request that asks for no operation is refused. -/
theorem isRefusal_of_asked (h : e.asked place r = .error answer) : answer.IsRefusal := by
  have hop : ∀ op : Operation e, .ok op = Except.error answer → answer.IsRefusal := nofun
  cases place with
  | collection =>
    rw [asked] at h
    split at h
    · exact hop _ h
    · exact hop _ h
    · exact isRefusal_of_bind (fun _ => hop _) h
    · cases h
      exact .method _
  | item segment =>
    rw [asked] at h
    split at h
    · exact isRefusal_of_bind (fun _ => hop _) h
    · exact isRefusal_of_bind (fun _ => hop _) h
    · exact isRefusal_of_bind (fun _ => isRefusal_of_bind fun _ => hop _) h
    · exact isRefusal_of_bind (fun _ => isRefusal_of_bind fun _ => hop _) h
    · exact isRefusal_of_bind (fun _ => hop _) h
    · cases h
      exact .method _

/-- A request that is refused at once has failed. -/
theorem isFailure_of_asked (h : e.asked place r = .error answer) : answer.IsFailure :=
  (isRefusal_of_asked h).isFailure

/-- A request with the method of reading asks for rows, if it asks for an operation. -/
theorem isRead_of_asked (hmethod : r.method = "GET" ∨ r.method = "HEAD") {op : Operation e}
    (h : e.asked place r = .ok op) : op.isRead := by
  cases place with
  | collection =>
    rcases hmethod with hmethod | hmethod
    all_goals
      simp only [asked, hmethod] at h
      cases h
      rfl
  | item segment =>
    rcases hmethod with hmethod | hmethod
    all_goals
      simp only [asked, hmethod] at h
      cases hid : idOfSegment segment with
      | error fault =>
        rw [hid] at h
        cases h
      | ok id =>
        rw [hid] at h
        cases h
        rfl

/-- A browser's question before a request asks for no operation. -/
theorem method_ne_options_of_asked {op : Operation e} (h : e.asked place r = .ok op) :
    r.method ≠ "OPTIONS" := by
  intro hmethod
  cases place with
  | collection => simp [asked, hmethod] at h
  | item segment => simp [asked, hmethod] at h

/-- The response to a request on a store in memory, and the store after it: those of its operation,
if it asks for one. -/
theorem run_respond (scheme : String) (place : Place) (r : Request) (s : MemoryStore e) :
    s.run (e.respond scheme place r) =
      match e.asked place r with
      | .ok op => (op.conclude scheme r (serve op s).1, (serve op s).2)
      | .error answer => (answer, s) := by
  rw [respond_eq]
  cases e.asked place r with
  | error answer => rfl
  | ok op => simp only [exchangeOf, MemoryStore.run_eq_ask, Plan.run_bind, Plan.run_done, serve]

/-- A request whose response tells of a failure leaves the store as it is. -/
theorem run_respond_of_isFailure {s : MemoryStore e}
    (h : (s.run (e.respond scheme place r)).1.IsFailure) :
    (s.run (e.respond scheme place r)).2 = s := by
  rw [run_respond] at h ⊢
  cases hasked : e.asked place r with
  | error answer => rfl
  | ok op =>
    rw [hasked] at h
    obtain ⟨fault, hfault⟩ := Operation.isFailure_conclude_iff.mp h
    exact Service.serve_of_error hfault

/-- A request with the method of reading leaves the store as it is. -/
theorem run_respond_of_isRead (hmethod : r.method = "GET" ∨ r.method = "HEAD")
    (s : MemoryStore e) : (s.run (e.respond scheme place r)).2 = s := by
  rw [run_respond]
  cases hasked : e.asked place r with
  | error answer => rfl
  | ok op => exact Service.serve_of_isRead (isRead_of_asked hmethod hasked) s

end Entity

end ExchangeCatalog
