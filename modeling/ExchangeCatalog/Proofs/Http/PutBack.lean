import ExchangeCatalog.Proofs.Entity.PutBack
import ExchangeCatalog.Proofs.Http.Stores

/-!
# Putting back what has been fetched

The response to a request for a row shows the row's object. A client that sends this object back, to
replace the row or to change it, asks for the values that the row has already: the store stays as it
is, and the response shows the same object again.

## Main definitions

* `Response.Shows`, `Request.Returns` — a response with a value, and a request that sends it back
* `Request.HasUsableBody` — a request whose body is read
* `Entity.PutsBack`, `Application.PutsBack` — sending back what was fetched changes nothing

## Main results

* `Service.patch_map_some` — changing every value is replacing the row
* `Entity.respond_of_returns` — what a request with the object of a row asks for
* `Entity.run_get`, `Entity.run_put` — fetching a row, and putting it back
* `fetched_rows_put_back` — every entity of the catalog takes back what it has shown
-/

namespace ExchangeCatalog

open Service (serve)

/-- A response with a value. -/
def Response.Shows (answer : Response) (v : Json) : Prop :=
  answer.status = 200 ∧ answer.body = some v

/-- A request that sends a value, in the text of a response, to replace or to change a row. -/
structure Request.Returns (put : Request) (v : Json) : Prop where
  method : put.method = "PUT" ∨ put.method = "PATCH"
  body : put.body = Utf8.encode v.render

/-- The body of a request is read: it says that it is JSON, and it is not too large. -/
def Request.HasUsableBody (r : Request) : Prop := r.hasJsonBody ∧ r.body.length ≤ bodyLimit

theorem Response.Shows.not_isFailure {answer : Response} {v : Json} (h : answer.Shows v) :
    ¬ answer.IsFailure := by
  rw [IsFailure, h.1]
  decide

section Bodies

variable {α : Type} {r : Request} {decode : List UInt8 → Except BodyFault α}

theorem readJsonBody_of_usable (h : r.HasUsableBody) :
    readJsonBody r decode = (decode r.body).mapError .badBody := by
  rw [readJsonBody, if_neg (not_not.mpr h.1), if_neg (Nat.not_lt.mpr h.2)]

theorem exists_fault_of_not_usable (h : ¬ r.HasUsableBody) :
    ∃ fault, readJsonBody r decode = .error fault := by
  rw [readJsonBody]
  split_ifs with hjson hsize
  · exact ⟨_, rfl⟩
  · exact absurd ⟨hjson, Nat.not_lt.mp hsize⟩ h
  · exact ⟨_, rfl⟩

end Bodies

variable {e : Entity} {scheme segment : String} {get put : Request} {v : Json}

/-- Changing every value is replacing the row. -/
theorem Service.patch_map_some (id : Int64) (record : Record e.columns) :
    (Service.patch id (record.map fun _ => some) : Session e (Row e)) =
      Service.replace id record := by
  simp only [Service.patch, Service.replace, Row.applyPatch, Record.applyPatch_map_some]

namespace Entity

variable {s : MemoryStore e} {row : Row e}

/-- A request with the object of a row asks for the row's values, whether it replaces or changes. -/
theorem respond_of_returns (hkeys : e.HasDistinctKeys) (hput : put.Returns row.toJson)
    (hbody : put.HasUsableBody) :
    e.respond scheme (.item segment) put =
      e.finish (e.rowResponse 200)
        (e.needing (idOfSegment segment) fun id => Service.replace id row.record) := by
  rcases hput.method with hmethod | hmethod
  · simp only [respond, hmethod, replaceExchange, readJsonBody_of_usable hbody, hput.body,
      row.readRecord_toJson hkeys]
    rfl
  · simp only [respond, hmethod, patchExchange, readJsonBody_of_usable hbody, hput.body,
      row.readPatch_toJson hkeys, ← Service.patch_map_some]
    rfl

/-- A body that is not read is a fault, unless the path was one. -/
theorem isFailure_of_not_usable (hmethod : put.method = "PUT" ∨ put.method = "PATCH")
    (hbody : ¬ put.HasUsableBody) (s : MemoryStore e) :
    (s.run (e.respond scheme (.item segment) put)).1.IsFailure := by
  have hasked : ∃ answer, e.asked (.item segment) put = .error answer := by
    cases hid : idOfSegment segment with
    | error fault =>
      rcases hmethod with hmethod | hmethod
      all_goals
        simp only [asked, hmethod, hid]
        exact ⟨_, rfl⟩
    | ok id =>
      rcases hmethod with hmethod | hmethod
      · obtain ⟨fault, hfault⟩ : ∃ fault, readJsonBody put e.readRecord = .error fault :=
          exists_fault_of_not_usable hbody
        simp only [asked, hmethod, hid, hfault]
        exact ⟨_, rfl⟩
      · obtain ⟨fault, hfault⟩ : ∃ fault, readJsonBody put e.readPatch = .error fault :=
          exists_fault_of_not_usable hbody
        simp only [asked, hmethod, hid, hfault]
        exact ⟨_, rfl⟩
  obtain ⟨answer, hanswer⟩ := hasked
  rw [run_respond, hanswer]
  exact isFailure_of_asked hanswer

/-- What a request for a row shows is the object of the row that is there. -/
theorem run_get (hget : get.method = "GET")
    (hshows : (s.run (e.respond scheme (.item segment) get)).1.Shows v) :
    ∃ id row, idOfSegment segment = .ok id ∧ s.table.find? id = some row ∧ row.toJson = v := by
  rw [run_respond] at hshows
  simp only [asked, hget] at hshows
  cases hid : idOfSegment segment with
  | error fault =>
    rw [hid] at hshows
    exact absurd (isFailure_faultResponse fault) hshows.not_isFailure
  | ok id =>
    rw [hid] at hshows
    cases hfind : s.table.find? id with
    | none =>
      simp only [Except.mapError, Bind.bind, Except.bind, Service.serve_get, hfind] at hshows
      exact absurd (isFailure_faultResponse _) hshows.not_isFailure
    | some row =>
      simp only [Except.mapError, Bind.bind, Except.bind, Service.serve_get, hfind] at hshows
      exact ⟨id, row, rfl, hfind, Option.some.inj hshows.2⟩

/-- The object of a row that is there is put back. -/
theorem run_put (hkeys : e.HasDistinctKeys) {id : Int64} (hid : idOfSegment segment = .ok id)
    (hfind : s.table.find? id = some row) (hput : put.Returns row.toJson)
    (hbody : put.HasUsableBody) :
    s.run (e.respond scheme (.item segment) put) = (e.rowResponse 200 row, s) := by
  -- What replaces the row is the row itself.
  have hsame : s.table.insert row = s.table :=
    Table.insert_of_find? ((Table.id_of_find? hfind).symm ▸ hfind)
  have hserve : (Service.replace id row.record).run MemoryStore.ask s = (.ok row, s) := by
    rw [← MemoryStore.run_eq_ask]
    refine (Service.serve_replace id row.record s).trans ?_
    rw [hfind]
    dsimp only
    rw [hsame]
  rw [respond_of_returns hkeys hput hbody, hid, needing, finish, MemoryStore.run_eq_ask,
    Plan.run_bind, hserve]
  rfl

/-- Sending back what was fetched changes nothing: the rows of the entity read back, and a request
that returns what the response to a request for the same row has shown leaves the store as it is and
is answered with the same object, unless its body is not read. -/
structure PutsBack (e : Entity) : Prop where
  rows : ∀ row : Row e, row.ReadsBack
  store : ∀ (s : MemoryStore e) (scheme segment : String) (get put : Request) (v : Json),
    get.method = "GET" → (s.run (e.respond scheme (.item segment) get)).1.Shows v →
      put.Returns v → (s.run (e.respond scheme (.item segment) put)).2 = s
  answer : ∀ (s : MemoryStore e) (scheme segment : String) (get put : Request) (v : Json),
    get.method = "GET" → (s.run (e.respond scheme (.item segment) get)).1.Shows v →
      put.Returns v → put.HasUsableBody →
        (s.run (e.respond scheme (.item segment) put)).1.Shows v

theorem putsBack (hkeys : e.HasDistinctKeys) : e.PutsBack where
  rows row := row.readsBack hkeys
  store s scheme segment get put v hget hshows hput := by
    by_cases hbody : put.HasUsableBody
    · obtain ⟨id, row, hid, hfind, rfl⟩ := run_get hget hshows
      rw [run_put hkeys hid hfind hput hbody]
    · exact run_respond_of_isFailure (isFailure_of_not_usable hput.method hbody s)
  answer s scheme segment get put v hget hshows hput hbody := by
    obtain ⟨id, row, hid, hfind, rfl⟩ := run_get hget hshows
    rw [run_put hkeys hid hfind hput hbody]
    exact ⟨rfl, rfl⟩

end Entity

namespace Application

variable {app : Application} {stores : Stores}

/-- A policy and the method of a request that wants a body leave status and body alone. -/
theorem shows_complete_iff {r : Request} {answer : Response} (hoptions : r.method ≠ "OPTIONS")
    (hhead : r.method ≠ "HEAD") : (app.complete r answer).Shows v ↔ answer.Shows v := by
  obtain ⟨hstatus, hbody⟩ := status_body_complete app hoptions hhead answer
  rw [Response.Shows, Response.Shows, hstatus, hbody]

/-- A list takes neither of the methods that put a row back. -/
theorem isFailure_of_collection (hmethod : put.method = "PUT" ∨ put.method = "PATCH")
    (s : MemoryStore e) : (s.run (e.respond scheme .collection put)).1.IsFailure := by
  rcases hmethod with hmethod | hmethod
  all_goals
    simp only [Entity.respond, hmethod]
    exact show 400 ≤ 405 by decide

/-- The route that has shown a row takes it back. -/
theorem serveStores_of_returns (hentities : ∀ m ∈ stores, m.entity.PutsBack)
    (hget : get.method = "GET") (hshows : (serveStores scheme get stores).1.Shows v)
    (hpath : put.target.path = get.target.path) (hput : put.Returns v) :
    (serveStores scheme put stores).2 = stores ∧
      ((serveStores scheme put stores).1.IsFailure ∨
        (serveStores scheme put stores).1.Shows v) := by
  induction stores with
  | nil => exact ⟨rfl, Or.inl (show 400 ≤ 404 by decide)⟩
  | cons m stores ih =>
    obtain ⟨hm, hentities⟩ := List.forall_mem_cons.mp hentities
    rw [serveStores] at hshows ⊢
    rw [hpath]
    cases hplace : placeOf? m.base get.target.path with
    | none =>
      rw [hplace] at hshows
      obtain ⟨hstores, hanswer⟩ := ih hentities hshows
      exact ⟨congrArg (m :: ·) hstores, hanswer⟩
    | some place =>
      rw [hplace] at hshows
      suffices hserve : (m.state.run (m.entity.respond scheme place put)).2 = m.state ∧
          ((m.state.run (m.entity.respond scheme place put)).1.IsFailure ∨
            (m.state.run (m.entity.respond scheme place put)).1.Shows v) by
        obtain ⟨hstate, hanswer⟩ := hserve
        refine ⟨?_, hanswer⟩
        simp only [hstate]
      cases place with
      | collection =>
        have hfailure : (m.state.run (m.entity.respond scheme .collection put)).1.IsFailure :=
          isFailure_of_collection hput.method m.state
        exact ⟨Entity.run_respond_of_isFailure hfailure, Or.inl hfailure⟩
      | item segment =>
        refine ⟨hm.store m.state scheme segment get put v hget hshows hput, ?_⟩
        by_cases hbody : put.HasUsableBody
        · exact Or.inr (hm.answer m.state scheme segment get put v hget hshows hput hbody)
        · exact Or.inl (Entity.isFailure_of_not_usable hput.method hbody m.state)

/-- A request to the target of another that returns what the response to it has shown leaves every
store as it is; it is refused, or it is answered with the same object. -/
def PutsBack (app : Application) (stores : Stores) : Prop :=
  ∀ (get put : Request) (v : Json), get.method = "GET" → (app.onMemory get stores).1.Shows v →
    put.target = get.target → put.Returns v →
      (app.onMemory put stores).2 = stores ∧
        ((app.onMemory put stores).1.IsFailure ∨ (app.onMemory put stores).1.Shows v)

theorem putsBack (app : Application) (hentities : ∀ m ∈ stores, m.entity.PutsBack) :
    app.PutsBack stores := by
  intro get put v hget hshows htarget hput
  have hmethod : put.normalized.method ≠ "OPTIONS" ∧ put.normalized.method ≠ "HEAD" ∧
      isRead put = false := by
    rcases hput.method with hmethod | hmethod
    all_goals
      simp only [Request.normalized, isRead, hmethod]
      decide
  have hmethod' : get.normalized.method ≠ "OPTIONS" ∧ get.normalized.method ≠ "HEAD" := by
    simp only [Request.normalized, hget]
    decide
  -- With one target both requests are for the health report, or neither is.
  have hasks : app.asksHealth put.normalized = app.asksHealth get.normalized := by
    simp only [asksHealth, Request.normalized, htarget]
  by_cases hhealth : app.asksHealth get.normalized
  · rw [onMemory_of_asksHealth (hasks ▸ hhealth), hmethod.2.2]
    exact ⟨rfl, Or.inl (isFailure_complete hmethod.1 (show 400 ≤ 405 by decide))⟩
  · rw [onMemory_of_not_asksHealth hhealth, shows_complete_iff hmethod'.1 hmethod'.2] at hshows
    rw [onMemory_of_not_asksHealth (hasks ▸ hhealth), shows_complete_iff hmethod.1 hmethod.2.1]
    have hpath : put.normalized.target.path = get.normalized.target.path := by
      simp only [Request.normalized, htarget]
    have hget' : get.normalized.method = "GET" := hget
    have hput' : put.normalized.Returns v := ⟨hput.method, hput.body⟩
    obtain ⟨hstores, hanswer⟩ := serveStores_of_returns hentities hget' hshows hpath hput'
    exact ⟨hstores, hanswer.imp_left (isFailure_complete hmethod.1)⟩

end Application

/-- Every entity of the catalog takes back what it has shown, in text and as a value, and so does an
application that serves it. -/
theorem fetched_rows_put_back :
    (∀ p ∈ Catalog.routes, p.2.HasDistinctKeys) ∧
      (∀ e : Entity, e.HasDistinctKeys → e.PutsBack) ∧
      ∀ (app : Application) (stores : Application.Stores),
        (∀ m ∈ stores, m.entity.HasDistinctKeys) → app.PutsBack stores := by
  refine ⟨by decide +kernel, fun e hkeys => Entity.putsBack hkeys, ?_⟩
  intro app stores hkeys
  exact app.putsBack fun m hm => Entity.putsBack (hkeys m hm)

/-- The least number, a text of characters that are written in different ways, and the leap second
that ends the first day. -/
def extremeValue : (k : Kind) → k.Carrier
  | .integer => Int64.minValue
  | .text => "\"\\/\t\x01é😀"
  | .boolean => true
  | .timestamp =>
    ⟨Date.firstDay, 86399, 1999999999, Int.le_refl _, by decide, by decide, by decide, by decide⟩

/-- A report in which every value is of this kind. -/
def extremeReport : Row Catalog.report := ⟨Int64.minValue, Fields.fill extremeValue _⟩

/-- A store with this report, under its path. -/
def extremeStores : Application.Stores :=
  [⟨"/report", Catalog.report, ⟨.ofRows [extremeReport], 1⟩⟩]

/-- A request at the place of the report. -/
def extremeRequest (method : String) (body : List UInt8) : Request :=
  ⟨method, .parse "/report/api/v1/-9223372036854775808", [("content-type", "application/json")],
    body⟩

/-- An application without a policy for other origins. -/
def plainApplication : Application := ⟨"http", none, true⟩

/-- The report is read back from its own object, and a request to change it by what has been shown
of it leaves the store as it is. -/
theorem extremeReport_put_back :
    Catalog.report.HasDistinctKeys ∧ extremeReport.ReadsBack ∧
      (plainApplication.onMemory (extremeRequest "GET" []) extremeStores).1.Shows
        extremeReport.toJson ∧
      (plainApplication.onMemory (extremeRequest "PATCH" (Utf8.encode extremeReport.toJson.render))
        extremeStores).2 = extremeStores := by
  obtain ⟨-, hentities, hstores⟩ := fetched_rows_put_back
  have hkeys : Catalog.report.HasDistinctKeys := by decide +kernel
  have hshows : (plainApplication.onMemory (extremeRequest "GET" []) extremeStores).1.Shows
      extremeReport.toJson := ⟨rfl, rfl⟩
  have hreturns : (extremeRequest "PATCH" (Utf8.encode extremeReport.toJson.render)).Returns
      extremeReport.toJson := ⟨Or.inr rfl, rfl⟩
  have hback := hstores plainApplication extremeStores (List.forall_mem_singleton.mpr hkeys)
    (extremeRequest "GET" []) (extremeRequest "PATCH" (Utf8.encode extremeReport.toJson.render)) _
    rfl hshows rfl hreturns
  exact ⟨hkeys, (hentities Catalog.report hkeys).rows extremeReport, hshows, hback.1⟩

end ExchangeCatalog
