import ExchangeCatalog.Catalog
import ExchangeCatalog.Proofs.Filter.Registry
import ExchangeCatalog.Proofs.Sql.Conversation

/-!
# Values that cannot be read

A list whose predicates hold a value that cannot be read ends with the fault of the first such
predicate. It does so on a store in memory and on a database alike, for the values are read before
either is asked for a row, and no other fault of a list is one of the request.

## Main definitions

* `Service.listPlan` — the statements of a list
* `ReportsFirstRefused` — how lists with such predicates end

## Main results

* `Service.serve_list_of_refuses`, `Service.listPlan_of_refuses` — the first fault, before anything
  else
* `Service.isValidation_serve_list_iff`, `Service.isValidation_run_listPlan_iff` — no other list
  ends with a fault of the request
* `bad_values_reported_first` — these together
-/

namespace ExchangeCatalog

namespace Service

variable {e : Entity} {ps : List Predicate} {request : PageRequest} {p : Predicate} {c : Column}

/-- The statements of a list, with what it is answered. -/
def listPlan (e : Entity) (ps : List Predicate) (request : PageRequest) :
    StatementPlan (Except Fault (Page (Row e))) :=
  (list ps request).through SqlRepository.answer

theorem listPlan_of_error {fault : Fault} (h : typedFilters (e.retain ps) = .error fault) :
    listPlan e ps request = .done (.error fault) := by
  rw [listPlan, list, asking, Plan.through, SqlRepository.answer, h]
  rfl

/-! ### The first fault -/

/-- A store in memory reports the first value that cannot be read, and stays as it is. -/
theorem serve_list_of_refuses (hp : ps.find? e.refuses = some p)
    (hc : e.resolve? p.field = some c) (s : MemoryStore e) :
    serve (.list ps request) s = (.error (.invalidFilter c.kind p.value p.field), s) := by
  rw [serve_list, typedFilters_retain_eq_error_iff.mpr ⟨p, c, hp, hc, rfl⟩]
  rfl

/-- A list on a database reports the same without a statement. -/
theorem listPlan_of_refuses (hp : ps.find? e.refuses = some p) (hc : e.resolve? p.field = some c) :
    listPlan e ps request = .done (.error (.invalidFilter c.kind p.value p.field)) :=
  listPlan_of_error (typedFilters_retain_eq_error_iff.mpr ⟨p, c, hp, hc, rfl⟩)

/-! ### Every other list -/

/-- In memory a list whose values can be read is answered. -/
theorem isValidation_serve_list_iff (s : MemoryStore e) :
    IsValidation (serve (.list ps request) s).1 ↔ ∃ p ∈ ps, e.refuses p := by
  rw [← exists_typedFilters_retain_eq_error_iff, serve_list]
  cases h : typedFilters (e.retain ps) with
  | error fault => exact iff_of_true ⟨fault, rfl, kind_of_typedFilters h⟩ ⟨fault, rfl⟩
  | ok typed => exact iff_of_false not_isValidation_ok nofun

/-- On a database such a list ends as the replies settle it. -/
theorem ListConversation.not_isValidation {turns : List Turn}
    {answer : Except Fault (Page (Row e))} {typed : List TypedFilter}
    (h : ListConversation ps request turns answer)
    (htyped : typedFilters (e.retain ps) = .ok typed) : ¬ IsValidation answer := by
  cases h with
  | unreadable hfault => cases hfault.symm.trans htyped
  | uncounted _ _ hsettled => exact hsettled.not_isValidation
  | counted _ _ hsettled => exact hsettled.not_isValidation

theorem isValidation_run_listPlan_iff {σ : Type} (database : Statement → σ → Outcome × σ) (t : σ) :
    IsValidation ((listPlan e ps request).run database t).1 ↔ ∃ p ∈ ps, e.refuses p := by
  rw [← exists_typedFilters_retain_eq_error_iff]
  cases h : typedFilters (e.retain ps) with
  | error fault =>
    rw [listPlan_of_error h]
    exact iff_of_true ⟨fault, rfl, kind_of_typedFilters h⟩ ⟨fault, rfl⟩
  | ok typed =>
    have hfollows := Plan.follows_transcript database (listPlan e ps request) t
    exact iff_of_false ((conversation_of_list hfollows).not_isValidation h) nofun

/-- A predicate that names no column by a name that filters may use makes no difference to a
list. -/
theorem list_of_resolve?_eq_none {before after : List Predicate}
    (hp : e.resolve? p.field = none) :
    list (e := e) (before ++ p :: after) request = list (before ++ after) request := by
  have hretain : e.retain (before ++ p :: after) = e.retain (before ++ after) := by
    simp only [Entity.retain, List.filterMap_append, List.filterMap_cons, hp, Option.map_none]
  rw [list, list, hretain]

end Service

open Service (serve listPlan)

/-- How a list ends whose predicates hold values that cannot be read. -/
structure ReportsFirstRefused (e : Entity) (ps : List Predicate) (request : PageRequest) :
    Prop where
  /-- On a store in memory it ends with a fault of the request exactly when there is such a
  predicate, -/
  memory_iff : ∀ s : MemoryStore e,
    IsValidation (serve (.list ps request) s).1 ↔ ∃ p ∈ ps, e.refuses p
  /-- and so it does on a database, whatever the database replies. -/
  database_iff : ∀ {σ : Type} (database : Statement → σ → Outcome × σ) (t : σ),
    IsValidation ((listPlan e ps request).run database t).1 ↔ ∃ p ∈ ps, e.refuses p
  /-- The fault tells of the first of these predicates. Both report the same; the store is as it
  was, and the connection has neither sent a statement nor taken a reply, were there one to be
  had. -/
  first : ∀ p, ps.find? e.refuses = some p → ∃ c fault, e.resolve? p.field = some c ∧
    fault.kind = .validation ∧
    fault.message =
      "Invalid " ++ c.kind.name ++ " value '" ++ p.value ++ "' for filter '" ++ p.field ++ "'" ∧
    (∀ s : MemoryStore e, serve (.list ps request) s = (.error fault, s)) ∧
    listPlan e ps request = .done (.error fault) ∧
    ∀ connection, (listPlan e ps request).run Connection.send connection =
      (.error fault, connection)
  /-- A predicate by a name that the entity does not allow or does not have is not among them: the
  list is the one without it. -/
  unresolved : ∀ before p after, ps = before ++ p :: after →
    p.field ∉ e.filterable ∨ p.field ∉ e.fields.map Column.name →
      e.refuses p = false ∧
      Service.list (e := e) ps request = Service.list (before ++ after) request

/-- A value that cannot be read is reported before anything else, and the first one is. -/
theorem bad_values_reported_first (e : Entity) (ps : List Predicate) (request : PageRequest) :
    ReportsFirstRefused e ps request where
  memory_iff := Service.isValidation_serve_list_iff
  database_iff := Service.isValidation_run_listPlan_iff
  first p hp := by
    obtain ⟨c, hc, -⟩ := e.refuses_eq_true_iff.mp (List.find?_some hp)
    refine ⟨c, _, hc, rfl, rfl, Service.serve_list_of_refuses hp hc,
      Service.listPlan_of_refuses hp hc, fun connection => ?_⟩
    rw [Service.listPlan_of_refuses hp hc, Plan.run_done]
  unresolved before p after hps hname := by
    have hp := Entity.resolve?_eq_none_iff.mpr hname
    refine ⟨by rw [Entity.refuses, hp, Option.any_none], ?_⟩
    rw [hps, Service.list_of_resolve?_eq_none hp]

/-- Of two such values in a list of assignments to halls, the first is the one that is found. -/
example : [⟨"group_id", .equal, "1"⟩, ⟨"hall_id", .equal, "x"⟩, ⟨"group_id", .lessThan, "y"⟩].find?
    Catalog.groupHall.refuses = some ⟨"hall_id", .equal, "x"⟩ := by
  decide

end ExchangeCatalog
