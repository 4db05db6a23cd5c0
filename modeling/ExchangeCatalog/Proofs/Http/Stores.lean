import ExchangeCatalog.Http.Application
import ExchangeCatalog.Proofs.Http.Exchange
import ExchangeCatalog.Proofs.Sequence

/-!
# What requests do to the stores

The application on stores in memory hands a request to the first route whose path fits, and no other
store is touched. The store of that route changes only if the client is told of a success, so a
request that failed can be left out of a run without any later answer being another.

## Main definitions

* `Request.normalized` — a request as the routes see it
* `Mount.serve` — the response of a route, and the route with the store after it
* `Application.effective` — the requests of a run that did not fail

## Main results

* `Application.serveStores_cases`, `Application.onMemory_cases` — all that a request can do
* `Application.failed_requests_change_nothing` — neither a failed request nor one that reads changes
  any store
* `Application.stores_of_effective` — the requests that failed can be left out of a run
-/

namespace ExchangeCatalog

/-- A request as the routes see it, without slashes too many in its path. -/
def Request.normalized (r : Request) : Request := { r with target := r.target.trimmed }

/-- The response of a route to a request at a place of it, and the route after the request. -/
def Mount.serve (m : Mount MemoryStore) (scheme : String) (place : Place) (r : Request) :
    Response × Mount MemoryStore :=
  ((m.state.run (m.entity.respond scheme place r)).1,
    { m with state := (m.state.run (m.entity.respond scheme place r)).2 })

theorem Mount.serve_of_isFailure {m : Mount MemoryStore} {scheme : String} {place : Place}
    {r : Request} (h : (m.serve scheme place r).1.IsFailure) :
    (m.serve scheme place r).2 = m := by
  simp only [serve, Entity.run_respond_of_isFailure h]

theorem Mount.serve_of_isRead {m : Mount MemoryStore} {scheme : String} {place : Place}
    {r : Request} (h : r.method = "GET" ∨ r.method = "HEAD") :
    (m.serve scheme place r).2 = m := by
  simp only [serve, Entity.run_respond_of_isRead h]

namespace Application

variable {app : Application} {scheme : String} {r : Request} {stores : Stores}

/-! ### One request -/

/-- A request is answered by the first route that its path fits, or by none. -/
theorem serveStores_cases (scheme : String) (r : Request) (stores : Stores) :
    ((∀ m ∈ stores, placeOf? m.base r.target.path = none) ∧
        serveStores scheme r stores = (.empty 404, stores)) ∨
      ∃ before m after place, stores = before ++ m :: after ∧
        (∀ m' ∈ before, placeOf? m'.base r.target.path = none) ∧
        placeOf? m.base r.target.path = some place ∧
        serveStores scheme r stores =
          ((m.serve scheme place r).1, before ++ (m.serve scheme place r).2 :: after) := by
  induction stores with
  | nil => exact Or.inl ⟨by simp, rfl⟩
  | cons m stores ih =>
    rw [serveStores]
    cases hplace : placeOf? m.base r.target.path with
    | some place => exact Or.inr ⟨[], m, stores, place, rfl, by simp, hplace, rfl⟩
    | none =>
      rcases ih with ⟨hnone, hserve⟩ | ⟨before, m', after, place, rfl, hbefore, hplace', hserve⟩
      · refine Or.inl ⟨?_, by rw [hserve]⟩
        simpa [hplace] using hnone
      · refine Or.inr ⟨m :: before, m', after, place, rfl, ?_, hplace', by rw [hserve]; rfl⟩
        simpa [hplace] using hbefore

/-- A policy answers a question before a request in place of the service; else the service's status
stands. -/
theorem status_complete (app : Application) (r : Request) (answer : Response) :
    (app.complete r answer).status =
      if app.cors.isSome ∧ r.method = "OPTIONS" then 200 else answer.status := by
  have hbody : ∀ answer : Response,
      (if r.method = "HEAD" then { answer with body := none } else answer).status =
        answer.status := by
    intro answer
    split_ifs
    · rfl
    · rfl
  rw [complete, hbody]
  cases app.cors with
  | none => simp
  | some p =>
    by_cases hmethod : r.method = "OPTIONS"
    · simp [CorsPolicy.apply, hmethod]
    · simp [CorsPolicy.apply, hmethod]

/-- Status and body reach the client as they are, but for such a question and for a request that
wants no body. -/
theorem status_body_complete (app : Application) (hoptions : r.method ≠ "OPTIONS")
    (hhead : r.method ≠ "HEAD") (answer : Response) :
    (app.complete r answer).status = answer.status ∧
      (app.complete r answer).body = answer.body := by
  constructor
  · rw [status_complete, if_neg fun hp => hoptions hp.2]
  · rw [complete, if_neg hhead]
    cases app.cors with
    | none => rfl
    | some p => simp only [CorsPolicy.apply, if_neg hoptions]

/-- So does a report of a fault. -/
theorem reports_complete {answer : Response} {kind : FaultKind} {message : String}
    (hoptions : r.method ≠ "OPTIONS") (hhead : r.method ≠ "HEAD")
    (h : answer.Reports kind message) : (app.complete r answer).Reports kind message := by
  obtain ⟨hstatus, hbody⟩ := status_body_complete app hoptions hhead answer
  constructor
  · exact hstatus.trans h.status
  · rw [hbody, hstatus, h.body]

/-- What the client takes for a failure was one. -/
theorem isFailure_of_complete {answer : Response} (h : (app.complete r answer).IsFailure) :
    answer.IsFailure := by
  rw [Response.IsFailure, status_complete] at h
  split_ifs at h
  · exact absurd h (by decide)
  · exact h

theorem isFailure_complete {answer : Response} (hmethod : r.method ≠ "OPTIONS")
    (h : answer.IsFailure) : (app.complete r answer).IsFailure := by
  rwa [Response.IsFailure, status_complete, if_neg fun hp => hmethod hp.2]

theorem onMemory_of_asksHealth (h : app.asksHealth r.normalized) (stores : Stores) :
    app.onMemory r stores =
      (app.complete r.normalized
        (if isRead r then healthResponse (.ok "memory") else healthRefusal), stores) := by
  rw [onMemory]
  exact if_pos h

theorem onMemory_of_not_asksHealth (h : ¬ app.asksHealth r.normalized) (stores : Stores) :
    app.onMemory r stores =
      (app.complete r.normalized (serveStores app.scheme r.normalized stores).1,
        (serveStores app.scheme r.normalized stores).2) := by
  rw [onMemory]
  exact if_neg h

/-- A request changes at most the store of one route, as an exchange with it does. A request that
reaches no route has failed, unless it reads the health report. -/
theorem onMemory_cases (app : Application) (r : Request) (stores : Stores) :
    (∃ answer, app.onMemory r stores = (app.complete r.normalized answer, stores) ∧
        (answer.IsFailure ∨ isRead r)) ∨
      ∃ before m after place, stores = before ++ m :: after ∧
        placeOf? m.base r.target.trimmed.path = some place ∧
        app.onMemory r stores =
          (app.complete r.normalized (m.serve app.scheme place r.normalized).1,
            before ++ (m.serve app.scheme place r.normalized).2 :: after) := by
  by_cases hhealth : app.asksHealth r.normalized
  · refine Or.inl ⟨_, onMemory_of_asksHealth hhealth stores, ?_⟩
    by_cases hread : isRead r
    · exact Or.inr hread
    · refine Or.inl ?_
      rw [if_neg hread]
      exact show 400 ≤ 405 by decide
  · rw [onMemory_of_not_asksHealth hhealth]
    rcases serveStores_cases app.scheme r.normalized stores with
      ⟨-, hnone⟩ | ⟨before, m, after, place, hstores, -, hplace, hsome⟩
    · rw [hnone]
      exact Or.inl ⟨_, rfl, Or.inl (show 400 ≤ 404 by decide)⟩
    · rw [hsome]
      exact Or.inr ⟨before, m, after, place, hstores, hplace, rfl⟩

/-- A request that failed leaves every store as it is. -/
theorem onMemory_of_isFailure (h : (app.onMemory r stores).1.IsFailure) :
    (app.onMemory r stores).2 = stores := by
  rcases app.onMemory_cases r stores with
    ⟨answer, heq, -⟩ | ⟨before, m, after, place, rfl, -, heq⟩
  · rw [heq]
  · rw [heq] at h ⊢
    rw [Mount.serve_of_isFailure (isFailure_of_complete h)]

/-- A request that reads leaves every store as it is, however it is answered. -/
theorem onMemory_of_isRead (h : r.method = "GET" ∨ r.method = "HEAD") :
    (app.onMemory r stores).2 = stores := by
  rcases app.onMemory_cases r stores with
    ⟨answer, heq, -⟩ | ⟨before, m, after, place, rfl, -, heq⟩
  · rw [heq]
  · have hread : r.normalized.method = "GET" ∨ r.normalized.method = "HEAD" := h
    rw [heq, Mount.serve_of_isRead hread]

/-- A request for a new row fails when its path names no collection, and when its body gives no
record. -/
theorem isFailure_of_create (hmethod : r.method = "POST")
    (h : ∀ m ∈ stores, placeOf? m.base r.target.trimmed.path = some .collection →
      ∃ fault, readJsonBody r m.entity.readRecord = .error fault) :
    (app.onMemory r stores).1.IsFailure := by
  have hpost : r.normalized.method = "POST" := hmethod
  have hnot : r.normalized.method ≠ "OPTIONS" := by
    rw [hpost]
    decide
  rcases app.onMemory_cases r stores with
    ⟨answer, heq, hanswer⟩ | ⟨before, m, after, place, rfl, hplace, heq⟩
  · rw [heq]
    refine isFailure_complete hnot (hanswer.resolve_right ?_)
    rw [isRead, hmethod]
    decide
  · rw [heq]
    refine isFailure_complete hnot ?_
    have hasked : ∃ answer, m.entity.asked place r.normalized = .error answer := by
      cases place with
      | collection =>
        obtain ⟨fault, hfault⟩ := h m (by simp) hplace
        have hbody : readJsonBody r.normalized m.entity.readRecord = .error fault := hfault
        exact ⟨faultResponse fault, by simp only [Entity.asked, hpost, hbody]; rfl⟩
      | item segment =>
        exact ⟨.methodNotAllowed "GET,HEAD,PUT,PATCH,DELETE", by simp [Entity.asked, hpost]⟩
    obtain ⟨answer, hanswer⟩ := hasked
    rw [Mount.serve, Entity.run_respond, hanswer]
    exact Entity.isFailure_of_asked hanswer

/-- A request spares the stores that it is made on, unless it is answered with a success. -/
structure Spares (app : Application) (r : Request) (stores : Stores) : Prop where
  /-- A request that failed leaves every row and every counter as it was. -/
  failed : 400 ≤ (app.onMemory r stores).1.status → (app.onMemory r stores).2 = stores
  /-- So does a request that reads, however it is answered. -/
  reading : r.method = "GET" ∨ r.method = "HEAD" → (app.onMemory r stores).2 = stores
  /-- A request for a new row takes no identifier when its path, content type or body is bad. -/
  creating : r.method = "POST" →
    (∀ m ∈ stores, placeOf? m.base r.target.trimmed.path = some .collection →
      ∃ fault, readJsonBody r m.entity.readRecord = .error fault) →
    400 ≤ (app.onMemory r stores).1.status ∧ (app.onMemory r stores).2 = stores

/-- Neither a failed request nor one that reads changes any store. -/
theorem failed_requests_change_nothing (app : Application) (r : Request) (stores : Stores) :
    app.Spares r stores where
  failed := onMemory_of_isFailure
  reading := onMemory_of_isRead
  creating hmethod hbad :=
    have hfailure := isFailure_of_create hmethod hbad
    ⟨hfailure, onMemory_of_isFailure hfailure⟩

/-! ### A run of requests -/

/-- The stores after requests in a row. -/
def storesAfter (app : Application) (rs : List Request) (stores : Stores) : Stores :=
  rs.foldl (fun stores r => (app.onMemory r stores).2) stores

@[simp] theorem storesAfter_cons (app : Application) (r : Request) (rs : List Request)
    (stores : Stores) :
    app.storesAfter (r :: rs) stores = app.storesAfter rs (app.onMemory r stores).2 := rfl

instance (answer : Response) : Decidable answer.IsFailure := by
  unfold Response.IsFailure
  infer_instance

/-- The requests of a run that did not fail. -/
def effective (app : Application) : List Request → Stores → List Request
  | [], _ => []
  | r :: rs, stores =>
    let rest := app.effective rs (app.onMemory r stores).2
    if (app.onMemory r stores).1.IsFailure then rest else r :: rest

/-- The requests that failed can be left out of a run. -/
theorem storesAfter_effective (app : Application) (rs : List Request) (stores : Stores) :
    app.storesAfter (app.effective rs stores) stores = app.storesAfter rs stores := by
  induction rs generalizing stores with
  | nil => rfl
  | cons r rs ih =>
    rw [effective, storesAfter_cons, ← ih]
    split_ifs with hfailure
    · -- The rest starts from the stores that the failed request has found.
      rw [onMemory_of_isFailure hfailure]
    · rw [storesAfter_cons]

end Application

end ExchangeCatalog
