import ExchangeCatalog.Proofs.Repository.Memory
import ExchangeCatalog.Proofs.Sequence
import ExchangeCatalog.Service

/-!
# Operations of the service

The six requests of a client as data, so that a run of the service is a list of them.

## Main definitions

* `Service.Operation` — the requests, with what each is answered
* `Service.serve` — the answer to a request on a store in memory, and the store after it

## Main results

* `Service.serve_list`, `Service.serve_get`, `Service.serve_create`, `Service.serve_replace`,
  `Service.serve_patch`, `Service.serve_delete` — the answer to each request in terms of the table
* `Service.serve_of_error`, `Service.serve_of_isRead` — the requests that leave the store as it is
-/

namespace ExchangeCatalog.Service

variable {e : Entity}

/-- A request to the service. -/
inductive Operation (e : Entity)
  | list (predicates : List Predicate) (request : PageRequest)
  | get (id : Int64)
  | create (record : Record e.columns)
  | replace (id : Int64) (record : Record e.columns)
  | patch (id : Int64) (changes : Patch e.columns)
  | delete (id : Int64)

namespace Operation

/-- What a request is answered, if nothing goes wrong. -/
abbrev Result : Operation e → Type
  | list .. => Page (Row e)
  | get _ | create _ | replace .. | patch .. => Row e
  | delete _ => Unit

/-- What a request is answered. -/
abbrev Answer (op : Operation e) : Type := Except Fault op.Result

/-- The questions to the repository that answer a request. -/
def session : (op : Operation e) → Session e op.Result
  | list predicates request => Service.list predicates request
  | get id => Service.get id
  | create record => Service.create record
  | replace id record => Service.replace id record
  | patch id changes => Service.patch id changes
  | delete id => Service.delete id

/-- Whether a request asks for a new row. -/
def isCreate : Operation e → Bool
  | create _ => true
  | _ => false

/-- Whether a request only asks for rows. -/
def isRead : Operation e → Bool
  | list .. | get _ => true
  | create _ | replace .. | patch .. | delete _ => false

/-- The identifier that a request names for a change. -/
def target? : Operation e → Option Int64
  | replace id _ | patch id _ | delete id => some id
  | list .. | get _ | create _ => none

end Operation

/-- The answer to a request on a store in memory, and the store after it. -/
def serve (op : Operation e) (s : MemoryStore e) : op.Answer × MemoryStore e := s.run op.session

theorem serve_list (predicates : List Predicate) (request : PageRequest) (s : MemoryStore e) :
    serve (.list predicates request) s =
      ((typedFilters (e.retain predicates)).map fun typed => MemoryStore.selectPage s.table typed
        request,
        s) := by
  rw [serve, MemoryStore.run_eq_ask, Operation.session, list, asking, Plan.run_ask,
    MemoryStore.ask_page]
  cases typedFilters (e.retain predicates) with
  | error fault => rfl
  | ok typed => rfl

@[simp] theorem serve_get (id : Int64) (s : MemoryStore e) :
    serve (.get id) s = (found (s.table.find? id), s) := rfl

@[simp] theorem serve_create (record : Record e.columns) (s : MemoryStore e) :
    serve (.create record) s =
      (.ok ⟨s.nextId, record⟩, ⟨s.table.insert ⟨s.nextId, record⟩, s.nextId + 1⟩) := rfl

/-- A change reads the row and writes it back changed, under the identifier that it had. -/
theorem run_change (id : Int64) (edit : Row e → Row e) (hid : ∀ r, (edit r).id = r.id)
    (s : MemoryStore e) :
    s.run (change id edit) =
      match s.table.find? id with
      | some r => (.ok (edit r), { s with table := s.table.insert (edit r) })
      | none => (.error (.rowNotFound e.label), s) := by
  rw [MemoryStore.run_eq_ask, change, asking, Plan.run_ask, MemoryStore.ask_find]
  cases hfind : s.table.find? id with
  | none => rfl
  | some r =>
    have hthere : (s.table.find? (edit r).id).isSome := by
      rw [hid, Table.id_of_find? hfind, hfind]
      rfl
    simp only [found, asking, Plan.run_ask, MemoryStore.ask_update, hthere, if_pos, Plan.run_done]

theorem serve_replace (id : Int64) (record : Record e.columns) (s : MemoryStore e) :
    serve (.replace id record) s =
      match s.table.find? id with
      | some r => (.ok ⟨r.id, record⟩, { s with table := s.table.insert ⟨r.id, record⟩ })
      | none => (.error (.rowNotFound e.label), s) :=
  run_change id (fun r => { r with record := record }) (fun _ => rfl) s

theorem serve_patch (id : Int64) (changes : Patch e.columns) (s : MemoryStore e) :
    serve (.patch id changes) s =
      match s.table.find? id with
      | some r => (.ok (r.applyPatch changes),
          { s with table := s.table.insert (r.applyPatch changes) })
      | none => (.error (.rowNotFound e.label), s) :=
  run_change id (fun r => r.applyPatch changes) (fun _ => rfl) s

theorem serve_delete (id : Int64) (s : MemoryStore e) :
    serve (.delete id) s =
      if (s.table.find? id).isSome then (.ok (), { s with table := s.table.erase id })
      else (.error (.rowNotFound e.label), s) := by
  rw [serve, MemoryStore.run_eq_ask, Operation.session, delete, asking, Plan.run_ask,
    MemoryStore.ask_delete]
  split_ifs with h
  · rfl
  · rfl

/-- A request for rows leaves the store as it is. -/
theorem serve_of_isRead {op : Operation e} (h : op.isRead) (s : MemoryStore e) :
    (serve op s).2 = s := by
  cases op with
  | list predicates request => rw [serve_list]
  | get id => rfl
  | create _ => cases h
  | replace _ _ => cases h
  | patch _ _ => cases h
  | delete _ => cases h

/-- A request that ends in a fault leaves the store as it is: a new row never ends so, and every
other request looks for its row before it changes anything. -/
theorem serve_of_error {op : Operation e} {s : MemoryStore e} {fault : Fault}
    (h : (serve op s).1 = .error fault) : (serve op s).2 = s := by
  cases op with
  | list _ _ => exact serve_of_isRead rfl s
  | get _ => exact serve_of_isRead rfl s
  | create record => cases h
  | replace id record =>
    rw [serve_replace] at h ⊢
    cases hfind : s.table.find? id with
    | none => rfl
    | some row => simp [hfind] at h
  | patch id changes =>
    rw [serve_patch] at h ⊢
    cases hfind : s.table.find? id with
    | none => rfl
    | some row => simp [hfind] at h
  | delete id =>
    rw [serve_delete] at h ⊢
    by_cases hfind : (s.table.find? id).isSome
    · simp [hfind] at h
    · simp [hfind]

end ExchangeCatalog.Service
