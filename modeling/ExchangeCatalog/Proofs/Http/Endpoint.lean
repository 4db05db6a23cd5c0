import ExchangeCatalog.Proofs.Filter.Registry
import ExchangeCatalog.Proofs.Http.PutBack

/-!
# Endpoints of an entity

An entity answers at six endpoints, each a method at a place. Two questions settle what becomes of a
request to one of them, before the repository is asked for more than a row: can its path, query and
body be read, and is the row there that it is about. A request that cannot be read is at fault
itself, whichever fault is met first.

## Main definitions

* `SegmentNames`, `Request.Carries` — an identifier in a path, and something in a body
* `Endpoint` — the endpoints of an entity
* `Endpoint.Accepts`, `Endpoint.Finds` — the request can be read, and its row is there
* `Endpoint.operation` — what a request to an endpoint asks for

## Main results

* `idOfSegment_eq_ok_iff`, `readJsonBody_eq_ok_iff`, `typedFilters_cases` — what is read
* `Endpoint.run_respond_eq` — a request to an endpoint is its operation, or a fault of its own
* `Endpoint.asked_of_no_endpoint` — every other method of a place is refused
-/

namespace ExchangeCatalog

open Service (Operation serve)

/-! ### What can be read of a request -/

/-- The text that a segment of a path stands for. -/
def segmentText? (segment : String) : Option String :=
  Utf8.decode? (Percent.decode (Utf8.encode segment))

/-- A segment of a path stands for an identifier. -/
def SegmentNames (segment : String) (id : Int64) : Prop :=
  ∃ raw, segmentText? segment = some raw ∧ Decimal.int64? raw.toList = some id

/-- The body of a request is read, and decodes. -/
def Request.Carries {α : Type} (r : Request) (decode : List UInt8 → Except BodyFault α) : Prop :=
  r.HasUsableBody ∧ ∃ a, decode r.body = .ok a

variable {segment raw : String} {id id' : Int64} {fault : Fault}

theorem SegmentNames.eq (h : SegmentNames segment id) (h' : SegmentNames segment id') :
    id = id' := by
  obtain ⟨raw, hraw, hid⟩ := h
  obtain ⟨raw', hraw', hid'⟩ := h'
  cases hraw.symm.trans hraw'
  exact Option.some.inj (hid.symm.trans hid')

theorem idOfSegment_eq_ok_iff : idOfSegment segment = .ok id ↔ SegmentNames segment id := by
  rw [idOfSegment, SegmentNames, segmentText?]
  cases Utf8.decode? (Percent.decode (Utf8.encode segment)) with
  | none => simp
  | some raw =>
    cases hid : Decimal.int64? raw.toList with
    | none => simp [readId, hid]
    | some id => simp [readId, hid]

/-- A segment that stands for no identifier is a fault of the request, which shows the text of the
segment if it has one. -/
theorem fault_of_idOfSegment (h : idOfSegment segment = .error fault) :
    fault.kind = .validation ∧ (∀ id, ¬ SegmentNames segment id) ∧
      ∀ raw, segmentText? segment = some raw → fault = .invalidId raw := by
  refine ⟨?_, ?_, ?_⟩
  · rw [idOfSegment] at h
    split at h
    · rw [readId] at h
      split at h
      · cases h
      · cases h
        rfl
    · cases h
      rfl
  · intro id hid
    cases h.symm.trans (idOfSegment_eq_ok_iff.mpr hid)
  · intro raw hraw
    rw [segmentText?] at hraw
    rw [idOfSegment, hraw] at h
    simp only [readId] at h
    split at h
    · cases h
    · cases h
      rfl

section Bodies

variable {α : Type} {r : Request} {decode : List UInt8 → Except BodyFault α}

theorem readJsonBody_eq_ok_iff {a : α} :
    readJsonBody r decode = .ok a ↔ r.HasUsableBody ∧ decode r.body = .ok a := by
  by_cases husable : r.HasUsableBody
  · rw [readJsonBody_of_usable husable]
    cases decode r.body with
    | ok a' => simp [Except.mapError, husable]
    | error fault => simp [Except.mapError]
  · obtain ⟨fault, hfault⟩ : ∃ fault, readJsonBody r decode = .error fault :=
      exists_fault_of_not_usable husable
    simp [hfault, husable]

/-- A body that is not read, or does not decode, is a fault of the request. -/
theorem fault_of_readJsonBody (h : readJsonBody r decode = .error fault) :
    fault.kind = .validation ∧ ¬ r.Carries decode := by
  constructor
  · rw [readJsonBody] at h
    split_ifs at h
    · cases h
      rfl
    · cases hbody : decode r.body with
      | ok a =>
        rw [hbody] at h
        cases h
      | error fault =>
        rw [hbody] at h
        cases h
        rfl
    · cases h
      rfl
  · rintro ⟨husable, a, ha⟩
    cases h.symm.trans (readJsonBody_eq_ok_iff.mpr ⟨husable, ha⟩)

end Bodies

/-- Filters are read exactly when each of their values can be; otherwise the request is at fault. -/
theorem typedFilters_cases (filters : List RetainedFilter) :
    (∃ typed, typedFilters filters = .ok typed) ∧
        (∀ f ∈ filters, Value.read? f.column.kind f.value ≠ none) ∨
      ∃ fault, typedFilters filters = .error fault ∧ fault.kind = .validation ∧
        ∃ f ∈ filters, Value.read? f.column.kind f.value = none := by
  cases htyped : typedFilters filters with
  | ok typed =>
    refine Or.inl ⟨⟨typed, rfl⟩, fun f hf => Option.isSome_iff_ne_none.mp ?_⟩
    exact exists_typedFilters_iff.mp ⟨typed, htyped⟩ f hf
  | error fault =>
    obtain ⟨f, hf, rfl⟩ := typedFilters_eq_error_iff.mp htyped
    have hread : f.isRefused = true := List.find?_some hf
    exact Or.inr ⟨_, rfl, rfl, f, List.mem_of_find?_eq_some hf, Option.isNone_iff_eq_none.mp hread⟩

/-! ### Endpoints -/

/-- The endpoints of an entity. -/
inductive Endpoint
  | list
  | create
  | get (segment : String)
  | replace (segment : String)
  | patch (segment : String)
  | delete (segment : String)

namespace Endpoint

/-- The method of an endpoint. -/
def method : Endpoint → String
  | list | get _ => "GET"
  | create => "POST"
  | replace _ => "PUT"
  | patch _ => "PATCH"
  | delete _ => "DELETE"

/-- The place of an endpoint. -/
def place : Endpoint → Place
  | list | create => .collection
  | get segment | replace segment | patch segment | delete segment => .item segment

/-- The segment of the path that should name a row. -/
def segment? : Endpoint → Option String
  | list | create => none
  | get segment | replace segment | patch segment | delete segment => some segment

/-- The status of a success. -/
def successStatus : Endpoint → Nat
  | create => 201
  | delete _ => 204
  | list | get _ | replace _ | patch _ => 200

variable {e : Entity}

/-- The path, the query and the body of a request can be read: a segment names an identifier, a body
decodes, and the value of each filter on a field that may be filtered is one of the field's kind. -/
def Accepts (e : Entity) (r : Request) : Endpoint → Prop
  | list => ∀ p ∈ r.listRequest.predicates, ∀ c, e.resolve? p.field = some c →
    Value.read? c.kind p.value ≠ none
  | create => r.Carries e.readRecord
  | get segment | delete segment => ∃ id, SegmentNames segment id
  | replace segment => (∃ id, SegmentNames segment id) ∧ r.Carries e.readRecord
  | patch segment => (∃ id, SegmentNames segment id) ∧ r.Carries e.readPatch

/-- The row that a request is about is there, if it is about one. -/
def Finds (s : MemoryStore e) : Endpoint → Prop
  | list | create => True
  | get segment | replace segment | patch segment | delete segment =>
    ∃ id, SegmentNames segment id ∧ (s.table.find? id).isSome

variable {endpoint : Endpoint} {r : Request} {s : MemoryStore e} {segment : String} {id : Int64}

/-- A request whose path is accepted has an identifier where one is due. -/
theorem Accepts.exists_id (h : endpoint.Accepts e r)
    (hsegment : endpoint.segment? = some segment) : ∃ id, SegmentNames segment id := by
  cases endpoint with
  | list | create => cases hsegment
  | get segment | delete segment =>
    cases hsegment
    exact h
  | replace segment | patch segment =>
    cases hsegment
    exact h.1

theorem Accepts.not_invalidId (h : endpoint.Accepts e r) {segment raw : String}
    (hsegment : endpoint.segment? = some segment) (hraw : segmentText? segment = some raw) :
    Decimal.int64? raw.toList ≠ none := by
  obtain ⟨id, raw', hraw', hid⟩ := h.exists_id hsegment
  cases hraw.symm.trans hraw'
  simp [hid]

theorem successStatus_lt (endpoint : Endpoint) : endpoint.successStatus < 400 := by
  cases endpoint with
  | _ => simp [successStatus]

/-- With an identifier it is enough to look for its row. -/
theorem finds_iff (hsegment : endpoint.segment? = some segment) (hid : SegmentNames segment id) :
    endpoint.Finds s ↔ (s.table.find? id).isSome := by
  have hiff : (∃ id, SegmentNames segment id ∧ (s.table.find? id).isSome) ↔
      (s.table.find? id).isSome := by
    constructor
    · rintro ⟨id', hid', hfind⟩
      rwa [hid.eq hid']
    · intro hfind
      exact ⟨id, hid, hfind⟩
  cases endpoint with
  | list | create => cases hsegment
  | get segment | replace segment | patch segment | delete segment =>
    cases hsegment
    exact hiff

/-- The filters of a list are those of its predicates that the entity retains. -/
theorem accepts_list_iff : list.Accepts e r ↔
    ∀ f ∈ e.retain r.listRequest.predicates, Value.read? f.column.kind f.value ≠ none := by
  simp only [Accepts, Entity.retain, List.mem_filterMap, Option.map_eq_some_iff]
  constructor
  · rintro h f ⟨p, hp, c, hc, rfl⟩
    exact h p hp c hc
  · intro h p hp c hc
    exact h ⟨c, p.op, p.value⟩ ⟨p, hp, c, hc, rfl⟩

/-! ### The operation of an endpoint -/

/-- What a request to an endpoint asks for, or the first fault that is met in its path and body. -/
def operation (e : Entity) (r : Request) : Endpoint → Except Fault (Operation e)
  | list => .ok (.list r.listRequest.predicates r.listRequest.page)
  | create => (readJsonBody r e.readRecord).map .create
  | get segment => (idOfSegment segment).map .get
  | replace segment =>
    (idOfSegment segment).bind fun id => (readJsonBody r e.readRecord).map (.replace id)
  | patch segment =>
    (idOfSegment segment).bind fun id => (readJsonBody r e.readPatch).map (.patch id)
  | delete segment => (idOfSegment segment).map .delete

theorem asked_eq_operation (hmethod : r.method = endpoint.method) :
    e.asked endpoint.place r = (endpoint.operation e r).mapError faultResponse := by
  cases endpoint with
  | list =>
    simp only [Entity.asked, place, hmethod, method, operation]
    rfl
  | create =>
    simp only [Entity.asked, place, hmethod, method, operation]
    cases readJsonBody r e.readRecord <;> rfl
  | get segment =>
    simp only [Entity.asked, place, hmethod, method, operation]
    cases idOfSegment segment <;> rfl
  | delete segment =>
    simp only [Entity.asked, place, hmethod, method, operation]
    cases idOfSegment segment <;> rfl
  | replace segment =>
    simp only [Entity.asked, place, hmethod, method, operation]
    cases idOfSegment segment with
    | error fault => rfl
    | ok id => cases readJsonBody r e.readRecord <;> rfl
  | patch segment =>
    simp only [Entity.asked, place, hmethod, method, operation]
    cases idOfSegment segment with
    | error fault => rfl
    | ok id => cases readJsonBody r e.readPatch <;> rfl

/-- A request to an endpoint is its operation, or a fault of its path or body. -/
theorem run_respond_eq (scheme : String) (hmethod : r.method = endpoint.method)
    (s : MemoryStore e) :
    s.run (e.respond scheme endpoint.place r) =
      match endpoint.operation e r with
      | .ok op => (op.conclude scheme r (serve op s).1, (serve op s).2)
      | .error fault => (faultResponse fault, s) := by
  rw [Entity.run_respond, asked_eq_operation hmethod]
  cases endpoint.operation e r with
  | ok op => rfl
  | error fault => rfl

/-- A method that belongs to no endpoint of a place is refused there. -/
theorem asked_of_no_endpoint {place : Place}
    (hnone : ∀ endpoint : Endpoint, endpoint.place = place → endpoint.method ≠ r.method)
    (hhead : r.method ≠ "HEAD") :
    ∃ allowed, e.asked place r = .error (.methodNotAllowed allowed) := by
  cases place with
  | collection =>
    have hget := hnone list rfl
    have hpost := hnone create rfl
    refine ⟨"GET,HEAD,POST", ?_⟩
    rw [Entity.asked]
    split
    case h_1 hmethod => exact absurd hmethod.symm hget
    case h_2 hmethod => exact absurd hmethod hhead
    case h_3 hmethod => exact absurd hmethod.symm hpost
    case h_4 => rfl
  | item segment =>
    have hget := hnone (get segment) rfl
    have hput := hnone (replace segment) rfl
    have hpatch := hnone (patch segment) rfl
    have hdelete := hnone (delete segment) rfl
    refine ⟨"GET,HEAD,PUT,PATCH,DELETE", ?_⟩
    rw [Entity.asked]
    split
    case h_1 hmethod => exact absurd hmethod.symm hget
    case h_2 hmethod => exact absurd hmethod hhead
    case h_3 hmethod => exact absurd hmethod.symm hput
    case h_4 hmethod => exact absurd hmethod.symm hpatch
    case h_5 hmethod => exact absurd hmethod.symm hdelete
    case h_6 => rfl

end Endpoint

end ExchangeCatalog
