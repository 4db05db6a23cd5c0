import ExchangeCatalog.Proofs.Http.Endpoint
import ExchangeCatalog.Proofs.Http.Routing

/-!
# Which status a request is answered with

The status of an answer tells a client what became of its request: whether it could be read, whether
the row that it is about is there, and if both are so, at which endpoint it was served. From the
body of a failure the client learns what was wrong, and from the body of a success what is stored
now.

## Main definitions

* `Endpoint.Shows` — what the body of a success shows
* `Endpoint.Contract` — what the status and the body of an answer tell
* `Application.KeepsContract` — an application answers as the contract says

## Main results

* `Endpoint.Contract.refused`, `Endpoint.Contract.missingRow`, `Endpoint.Contract.served` — the
  three ways to keep the contract
* `Endpoint.contract_respond` — an entity keeps it at each of its endpoints
* `Application.status_contract` — so does the application, in every state that it can reach
-/

namespace ExchangeCatalog

open Service (Operation)

namespace Endpoint

variable {e : Entity}

/-- A body is the object of a row that is in a store. -/
def ShowsRow (s : MemoryStore e) (row : Row e) (body : Option Json) : Prop :=
  s.table.find? row.id = some row ∧ body = some row.toJson

/-- What the body of a success shows, from the store before the request and the one after it: rows
that are there now, with the values that the request has given them. -/
def Shows (r : Request) (s s' : MemoryStore e) (body : Option Json) : Endpoint → Prop
  | list => ∃ facts, ∃ rows : List (Row e), body = some (envelope facts (rows.map Row.toJson)) ∧
    ∀ row ∈ rows, s'.table.find? row.id = some row
  | create => ∃ row, ShowsRow s' row body ∧ e.readRecord r.body = .ok row.record
  | get segment => ∃ row, ShowsRow s' row body ∧ SegmentNames segment row.id
  | replace segment => ∃ row, ShowsRow s' row body ∧ SegmentNames segment row.id ∧
    e.readRecord r.body = .ok row.record
  | patch segment => ∃ row changes, ShowsRow s' (row.applyPatch changes) body ∧
    SegmentNames segment row.id ∧ s.table.find? row.id = some row ∧ e.readPatch r.body = .ok changes
  | delete segment => body = none ∧ ∀ id, SegmentNames segment id → s'.table.find? id = none

/-- What the status and the body of an answer tell of a request to an endpoint. -/
structure Contract (endpoint : Endpoint) (r : Request) (s : MemoryStore e) (answer : Response)
    (s' : MemoryStore e) : Prop where
  /-- The three statuses exclude each other, and one of them is given. -/
  badRequest : answer.status = 400 ↔ ¬ endpoint.Accepts e r
  notFound : answer.status = 404 ↔ endpoint.Accepts e r ∧ ¬ endpoint.Finds s
  success : answer.status = endpoint.successStatus ↔ endpoint.Accepts e r ∧ endpoint.Finds s
  /-- The identifier is looked at before anything else. -/
  invalidId : ∀ segment raw, endpoint.segment? = some segment → segmentText? segment = some raw →
    Decimal.int64? raw.toList = none → answer.Reports .validation ("Invalid id: " ++ raw)
  /-- A failure is reported with its status, and a row that is missing by the name of its entity. -/
  missing : answer.status = 404 → answer.Reports .notFound (e.label ++ " not found")
  reports : 400 ≤ answer.status → ∃ kind message, answer.Reports kind message
  shows : answer.status < 400 → endpoint.Shows r s s' answer.body

variable {endpoint : Endpoint} {scheme : String} {r : Request} {s s' : MemoryStore e}
  {answer : Response}

/-- Only status and body count. -/
theorem Contract.congr {answer' : Response} (h : endpoint.Contract r s answer s')
    (hstatus : answer'.status = answer.status) (hbody : answer'.body = answer.body) :
    endpoint.Contract r s answer' s' := by
  obtain ⟨status, headers, body⟩ := answer
  obtain ⟨status', headers', body'⟩ := answer'
  dsimp only at hstatus hbody
  subst hstatus hbody
  have hreports : ∀ {kind : FaultKind} {message : String},
      (⟨status', headers, body'⟩ : Response).Reports kind message →
        (⟨status', headers', body'⟩ : Response).Reports kind message :=
    fun hreport => ⟨hreport.status, hreport.body⟩
  refine ⟨h.badRequest, h.notFound, h.success, ?_, ?_, ?_, h.shows⟩
  · intro segment raw hsegment hraw hid
    exact hreports (h.invalidId segment raw hsegment hraw hid)
  · intro hmissing
    exact hreports (h.missing hmissing)
  · intro hfailure
    obtain ⟨kind, message, hreport⟩ := h.reports hfailure
    exact ⟨kind, message, hreports hreport⟩

namespace Contract

/-- The contract of a request that cannot be read. -/
theorem refused {fault : Fault} (hkind : fault.kind = .validation)
    (haccepts : ¬ endpoint.Accepts e r)
    (hid : ∀ segment raw, endpoint.segment? = some segment → segmentText? segment = some raw →
      Decimal.int64? raw.toList = none → fault = .invalidId raw) :
    endpoint.Contract r s (faultResponse fault) s := by
  have hstatus : (faultResponse fault).status = 400 := congrArg FaultKind.status hkind
  have hsuccess := endpoint.successStatus_lt
  constructor
  · exact iff_of_true hstatus haccepts
  · exact iff_of_false (by omega) fun h => haccepts h.1
  · exact iff_of_false (by omega) fun h => haccepts h.1
  · intro segment raw hsegment hraw hnone
    obtain rfl := hid segment raw hsegment hraw hnone
    exact reports_faultResponse _
  · intro h
    omega
  · intro _
    exact ⟨_, _, reports_faultResponse fault⟩
  · intro h
    omega

/-- The contract of a request about a row that is not there. -/
theorem missingRow (haccepts : endpoint.Accepts e r) (hfinds : ¬ endpoint.Finds s) :
    endpoint.Contract r s (faultResponse (.rowNotFound e.label)) s := by
  have hstatus : (faultResponse (.rowNotFound e.label)).status = 404 := rfl
  have hsuccess := endpoint.successStatus_lt
  constructor
  · exact iff_of_false (by omega) (not_not_intro haccepts)
  · exact iff_of_true hstatus ⟨haccepts, hfinds⟩
  · exact iff_of_false (by omega) fun h => hfinds h.2
  · intro segment raw hsegment hraw hnone
    exact absurd hnone (haccepts.not_invalidId hsegment hraw)
  · intro _
    exact reports_faultResponse _
  · intro _
    exact ⟨_, _, reports_faultResponse _⟩
  · intro h
    omega

/-- The contract of a request that goes well. -/
theorem served (haccepts : endpoint.Accepts e r) (hfinds : endpoint.Finds s)
    (hstatus : answer.status = endpoint.successStatus)
    (hshows : endpoint.Shows r s s' answer.body) : endpoint.Contract r s answer s' := by
  have hsuccess := endpoint.successStatus_lt
  constructor
  · exact iff_of_false (by omega) (not_not_intro haccepts)
  · exact iff_of_false (by omega) fun h => h.2 hfinds
  · exact iff_of_true hstatus ⟨haccepts, hfinds⟩
  · intro segment raw hsegment hraw hnone
    exact absurd hnone (haccepts.not_invalidId hsegment hraw)
  · intro h
    omega
  · intro h
    omega
  · intro _
    exact hshows

end Contract

/-! ### The contract at each endpoint -/

variable {segment : String} {id : Int64} {fault : Fault}

/-- A segment that names no identifier is refused, whatever the body. -/
theorem Contract.of_badSegment (hsegment : endpoint.segment? = some segment)
    (hfault : idOfSegment segment = .error fault) :
    endpoint.Contract r s (faultResponse fault) s := by
  obtain ⟨hkind, hnames, htext⟩ := fault_of_idOfSegment hfault
  refine .refused hkind ?_ ?_
  · intro haccepts
    obtain ⟨id, hid⟩ := haccepts.exists_id hsegment
    exact hnames id hid
  · intro segment' raw hsegment' hraw _
    cases hsegment.symm.trans hsegment'
    exact htext raw hraw

/-- A body that carries nothing is refused, once the path has been read. -/
theorem Contract.of_badBody {α : Type} {decode : List UInt8 → Except BodyFault α}
    (hsegment : ∀ segment, endpoint.segment? = some segment → ∃ id, SegmentNames segment id)
    (hneeds : endpoint.Accepts e r → r.Carries decode)
    (hfault : readJsonBody r decode = .error fault) :
    endpoint.Contract r s (faultResponse fault) s := by
  obtain ⟨hkind, hcarries⟩ := fault_of_readJsonBody hfault
  refine .refused hkind (fun haccepts => hcarries (hneeds haccepts)) ?_
  intro segment raw hplace hraw hnone
  obtain ⟨id, raw', hraw', hid⟩ := hsegment segment hplace
  cases hraw.symm.trans hraw'
  cases hnone.symm.trans hid

section Rows

variable (hsegment : endpoint.segment? = some segment) (hid : SegmentNames segment id)
  (haccepts : endpoint.Accepts e r)

include hsegment hid haccepts

theorem Contract.of_find_none (hfind : s.table.find? id = none) :
    endpoint.Contract r s (faultResponse (.rowNotFound e.label)) s := by
  refine .missingRow haccepts ?_
  simp [finds_iff hsegment hid, hfind]

theorem Contract.of_find_some {row : Row e} (hfind : s.table.find? id = some row)
    (hstatus : answer.status = endpoint.successStatus)
    (hshows : endpoint.Shows r s s' answer.body) : endpoint.Contract r s answer s' := by
  refine .served haccepts ?_ hstatus hshows
  simp [finds_iff hsegment hid, hfind]

end Rows

theorem contract_list (hmethod : r.method = list.method) :
    list.Contract r s (s.run (e.respond scheme .collection r)).1
      (s.run (e.respond scheme .collection r)).2 := by
  have hrun := run_respond_eq scheme hmethod s
  simp only [place, operation, Service.serve_list] at hrun
  rw [hrun]
  rcases typedFilters_cases (e.retain r.listRequest.predicates) with
    ⟨⟨typed, htyped⟩, hall⟩ | ⟨fault, hfault, hkind, f, hf, hnone⟩
  · rw [htyped]
    refine .served (accepts_list_iff.mpr hall) trivial rfl ⟨_, _, rfl, ?_⟩
    intro row hrow
    -- The rows of a page are rows of the table.
    have hmatching := List.mem_of_mem_drop (List.mem_of_mem_take hrow)
    exact Table.mem_rows_iff.mp (List.mem_of_mem_filter hmatching)
  · rw [hfault]
    refine .refused hkind ?_ (by rintro _ _ ⟨⟩)
    intro haccepts
    exact accepts_list_iff.mp haccepts f hf hnone

theorem contract_create (hmethod : r.method = create.method) :
    create.Contract r s (s.run (e.respond scheme .collection r)).1
      (s.run (e.respond scheme .collection r)).2 := by
  have hrun := run_respond_eq scheme hmethod s
  simp only [place, operation] at hrun
  rw [hrun]
  cases hbody : readJsonBody r e.readRecord with
  | error fault => exact .of_badBody (by rintro _ ⟨⟩) (fun haccepts => haccepts) hbody
  | ok record =>
    obtain ⟨husable, hrecord⟩ := readJsonBody_eq_ok_iff.mp hbody
    refine .served ⟨husable, record, hrecord⟩ trivial rfl
      ⟨⟨s.nextId, record⟩, ⟨?_, rfl⟩, hrecord⟩
    simp [Except.map, Table.find?_insert]

theorem contract_get (hmethod : r.method = (get segment).method) :
    (get segment).Contract r s (s.run (e.respond scheme (.item segment) r)).1
      (s.run (e.respond scheme (.item segment) r)).2 := by
  have hrun := run_respond_eq scheme hmethod s
  simp only [place, operation] at hrun
  rw [hrun]
  cases hid : idOfSegment segment with
  | error fault => exact .of_badSegment rfl hid
  | ok id =>
    have hnames := idOfSegment_eq_ok_iff.mp hid
    simp only [Except.map, Service.serve_get]
    cases hfind : s.table.find? id with
    | none => exact .of_find_none rfl hnames ⟨id, hnames⟩ hfind
    | some row =>
      have hrow : row.id = id := Table.id_of_find? hfind
      exact .of_find_some rfl hnames ⟨id, hnames⟩ hfind rfl
        ⟨row, ⟨hrow.symm ▸ hfind, rfl⟩, hrow.symm ▸ hnames⟩

/-- All that can come of reading an identifier and a body: a fault, which is answered as the
contract says, or both. -/
theorem contract_or_exists_of_read {α : Type} {decode : List UInt8 → Except BodyFault α}
    (op : Int64 → α → Operation e) (s : MemoryStore e) (hsegment : endpoint.segment? = some segment)
    (haccepts : endpoint.Accepts e r ↔ (∃ id, SegmentNames segment id) ∧ r.Carries decode) :
    (∃ fault, ((idOfSegment segment).bind fun id => (readJsonBody r decode).map (op id)) =
        .error fault ∧ endpoint.Contract r s (faultResponse fault) s) ∨
      ∃ id a, ((idOfSegment segment).bind fun id => (readJsonBody r decode).map (op id)) =
          .ok (op id a) ∧
        SegmentNames segment id ∧ decode r.body = .ok a ∧ endpoint.Accepts e r := by
  cases hid : idOfSegment segment with
  | error fault => exact Or.inl ⟨fault, rfl, .of_badSegment hsegment hid⟩
  | ok id =>
    have hnames := idOfSegment_eq_ok_iff.mp hid
    cases hbody : readJsonBody r decode with
    | error fault =>
      refine Or.inl ⟨fault, rfl, .of_badBody ?_ (fun h => (haccepts.mp h).2) hbody⟩
      intro segment' hsegment'
      cases hsegment.symm.trans hsegment'
      exact ⟨id, hnames⟩
    | ok a =>
      obtain ⟨husable, ha⟩ := readJsonBody_eq_ok_iff.mp hbody
      exact Or.inr ⟨id, a, rfl, hnames, ha, haccepts.mpr ⟨⟨id, hnames⟩, husable, a, ha⟩⟩

theorem contract_replace (hmethod : r.method = (replace segment).method) :
    (replace segment).Contract r s (s.run (e.respond scheme (.item segment) r)).1
      (s.run (e.respond scheme (.item segment) r)).2 := by
  have hrun := run_respond_eq scheme hmethod s
  simp only [place, operation] at hrun
  rw [hrun]
  have hneeds : (replace segment).Accepts e r ↔
      (∃ id, SegmentNames segment id) ∧ r.Carries e.readRecord := Iff.rfl
  rcases contract_or_exists_of_read .replace s rfl hneeds with
    ⟨fault, hfault, hcontract⟩ | ⟨id, record, hop, hnames, hrecord, haccepts⟩
  · rw [hfault]
    exact hcontract
  · rw [hop]
    simp only [Service.serve_replace]
    cases hfind : s.table.find? id with
    | none => exact .of_find_none rfl hnames haccepts hfind
    | some row =>
      have hrow : row.id = id := Table.id_of_find? hfind
      exact .of_find_some rfl hnames haccepts hfind rfl
        ⟨⟨row.id, record⟩, ⟨by simp [Table.find?_insert], rfl⟩, hrow.symm ▸ hnames, hrecord⟩

theorem contract_patch (hmethod : r.method = (patch segment).method) :
    (patch segment).Contract r s (s.run (e.respond scheme (.item segment) r)).1
      (s.run (e.respond scheme (.item segment) r)).2 := by
  have hrun := run_respond_eq scheme hmethod s
  simp only [place, operation] at hrun
  rw [hrun]
  have hneeds : (patch segment).Accepts e r ↔
      (∃ id, SegmentNames segment id) ∧ r.Carries e.readPatch := Iff.rfl
  rcases contract_or_exists_of_read .patch s rfl hneeds with
    ⟨fault, hfault, hcontract⟩ | ⟨id, changes, hop, hnames, hchanges, haccepts⟩
  · rw [hfault]
    exact hcontract
  · rw [hop]
    simp only [Service.serve_patch]
    cases hfind : s.table.find? id with
    | none => exact .of_find_none rfl hnames haccepts hfind
    | some row =>
      have hrow : row.id = id := Table.id_of_find? hfind
      exact .of_find_some rfl hnames haccepts hfind rfl
        ⟨row, changes, ⟨by simp [Table.find?_insert], rfl⟩, hrow.symm ▸ hnames, hrow.symm ▸ hfind,
          hchanges⟩

theorem contract_delete (hmethod : r.method = (delete segment).method) :
    (delete segment).Contract r s (s.run (e.respond scheme (.item segment) r)).1
      (s.run (e.respond scheme (.item segment) r)).2 := by
  have hrun := run_respond_eq scheme hmethod s
  simp only [place, operation] at hrun
  rw [hrun]
  cases hid : idOfSegment segment with
  | error fault => exact .of_badSegment rfl hid
  | ok id =>
    have hnames := idOfSegment_eq_ok_iff.mp hid
    simp only [Except.map, Service.serve_delete]
    cases hfind : s.table.find? id with
    | none => exact .of_find_none rfl hnames ⟨id, hnames⟩ hfind
    | some row =>
      refine .of_find_some rfl hnames ⟨id, hnames⟩ hfind rfl ⟨rfl, ?_⟩
      intro id' hid'
      simp [hid'.eq hnames, Table.find?_erase]

/-- An entity keeps the contract at each of its endpoints. -/
theorem contract_respond (scheme : String) (hmethod : r.method = endpoint.method)
    (s : MemoryStore e) :
    endpoint.Contract r s (s.run (e.respond scheme endpoint.place r)).1
      (s.run (e.respond scheme endpoint.place r)).2 := by
  cases endpoint with
  | list => exact contract_list hmethod
  | create => exact contract_create hmethod
  | get segment => exact contract_get hmethod
  | replace segment => exact contract_replace hmethod
  | patch segment => exact contract_patch hmethod
  | delete segment => exact contract_delete hmethod

end Endpoint

/-! ### The application -/

namespace Application

variable {app : Application} {stores : Stores} {m : Mount MemoryStore} {r : Request}

/-- An application keeps the contract at its stores: a request to an endpoint is answered as the
contract says by the store of its base, and every other method of a place is refused. -/
structure KeepsContract (app : Application) (stores : Stores) : Prop where
  /-- The six endpoints, at every base and in terms of the store that is kept for it. -/
  endpoints : ∀ m ∈ stores, ∀ (r : Request) (endpoint : Endpoint), r.method = endpoint.method →
    placeOf? m.base r.target.trimmed.path = some endpoint.place →
      ∃ s', ⟨m.base, m.entity, s'⟩ ∈ (app.onMemory r stores).2 ∧
        endpoint.Contract r.normalized m.state (app.onMemory r stores).1 s'
  /-- No other method is served, but for those that ask what a path would answer. -/
  others : ∀ m ∈ stores, ∀ (r : Request) (place : Place),
    placeOf? m.base r.target.trimmed.path = some place →
      (∀ endpoint : Endpoint, endpoint.place = place → endpoint.method ≠ r.method) →
        r.method ≠ "HEAD" → r.method ≠ "OPTIONS" →
          (app.onMemory r stores).1.status = 405 ∧ (app.onMemory r stores).1.body = none

theorem keepsContract (app : Application) (hstores : stores.map Mount.route = Catalog.routes) :
    app.KeepsContract stores := by
  constructor
  · intro m hm r endpoint hmethod hplace
    obtain ⟨hanswer, hholds⟩ :=
      (Holds.of_catalog hstores hm).onMemory_of_place app (isSegment_of_mem hstores hm) hplace
    refine ⟨_, hholds.mem, ?_⟩
    have hnormalized : r.normalized.method = endpoint.method := hmethod
    have hwants : r.normalized.method ≠ "OPTIONS" ∧ r.normalized.method ≠ "HEAD" := by
      rw [hnormalized]
      cases endpoint <;> simp [Endpoint.method]
    rw [hanswer]
    obtain ⟨hstatus, hbody⟩ := status_body_complete app hwants.1 hwants.2
      (m.serve app.scheme endpoint.place r.normalized).1
    exact (Endpoint.contract_respond app.scheme hnormalized m.state).congr hstatus hbody
  · intro m hm r place hplace hnone hhead hoptions
    obtain ⟨hanswer, -⟩ :=
      (Holds.of_catalog hstores hm).onMemory_of_place app (isSegment_of_mem hstores hm) hplace
    obtain ⟨allowed, hasked⟩ : ∃ allowed, m.entity.asked place r.normalized =
        .error (.methodNotAllowed allowed) := Endpoint.asked_of_no_endpoint hnone hhead
    have hserve : (m.serve app.scheme place r.normalized).1 = .methodNotAllowed allowed := by
      rw [Mount.serve, Entity.run_respond, hasked]
    rw [hanswer, hserve]
    exact status_body_complete app hoptions hhead (.methodNotAllowed allowed)

/-- From whatever stores it starts, the application of the catalog keeps the contract in every state
that requests can bring it to. -/
theorem status_contract (app : Application) (stores : Stores)
    (hstores : stores.map Mount.route = Catalog.routes) (rs : List Request) :
    app.KeepsContract (app.storesAfter rs stores) :=
  app.keepsContract ((map_route_storesAfter app rs stores).trans hstores)

/-- A request at the place of the group with the identifier one, written with its sign. -/
def groupRequest (method : String) : Request := ⟨method, .parse "/group/api/v1/%2B1/", [], []⟩

/-- Without any group there is none to delete, and a change that has no body is refused before that
is noticed. -/
theorem groupRequest_answered :
    emptyStores.map Mount.route = Catalog.routes ∧
      ((ofSettings {}).onMemory (groupRequest "DELETE") emptyStores).1.Reports .notFound
        "group not found" ∧
      ((ofSettings {}).onMemory (groupRequest "PATCH") emptyStores).1.status = 400 := by
  have hgroup : ⟨"/group", Catalog.group, .empty⟩ ∈ emptyStores := by
    have hroute : ("/group", Catalog.group) ∈ Catalog.routes := by decide +kernel
    exact List.mem_map_of_mem hroute
  have hnames : SegmentNames "%2B1" 1 := ⟨"+1", by decide +kernel, by decide +kernel⟩
  have hcontract := status_contract (ofSettings {}) emptyStores rfl []
  obtain ⟨s', -, hdelete⟩ := hcontract.endpoints _ hgroup (groupRequest "DELETE") (.delete "%2B1")
    rfl (by decide +kernel)
  obtain ⟨s'', -, hpatch⟩ := hcontract.endpoints _ hgroup (groupRequest "PATCH") (.patch "%2B1")
    rfl (by decide +kernel)
  refine ⟨rfl, hdelete.missing (hdelete.notFound.mpr ⟨⟨1, hnames⟩, ?_⟩), hpatch.badRequest.mpr ?_⟩
  · rintro ⟨id, -, hfind⟩
    cases hfind
  · rintro ⟨-, husable, -⟩
    exact absurd husable.1 (by decide +kernel)

end Application

end ExchangeCatalog
