import ExchangeCatalog.Filter.Registry

/-!
# What becomes of predicates

A predicate that is kept constrains a field of the entity under the name that the entity declares,
and reading its value changes nothing but the value. The columns and operators of a list request are
therefore known before any value is read. Values are read in order up to the first one that is none
of its column's kind, which is then the fault of the whole list.

## Main definitions

* `IsValidation` — an answer that finds fault with the request itself
* `RetainedFilter.isRefused`, `RetainedFilter.refusal` — a filter whose value cannot be read, and
  its fault
* `Entity.refuses` — a predicate whose value cannot be read

## Main results

* `Entity.mem_fields_of_resolve?`, `Entity.column_mem_of_mem_retain` — only fields of the entity are
  constrained
* `exists_of_typedFilters_cons` — what is read of a first filter and of the rest
* `map_of_typedFilters` — columns and operators stay as they are when values are read
* `typedFilters_eq_error_iff`, `exists_typedFilters_iff` — when filters can be read, and what their
  fault is
* `typedFilters_append` — lists of filters that can be read, one after the other
* `Entity.resolve?_eq_none_iff` — the names that no filter constrains anything by
* `typedFilters_retain_eq_error_iff` — the fault of a list of predicates is that of the first one
  whose value cannot be read
-/

namespace ExchangeCatalog

variable {e : Entity}

/-- An answer finds fault with the request itself. -/
def IsValidation {α : Type} (answer : Except Fault α) : Prop :=
  ∃ fault, answer = .error fault ∧ fault.kind = .validation

@[simp] theorem isValidation_error {α : Type} {fault : Fault} :
    IsValidation (.error fault : Except Fault α) ↔ fault.kind = .validation := by
  simp [IsValidation]

@[simp] theorem not_isValidation_ok {α : Type} {a : α} : ¬ IsValidation (.ok a) := by
  simp [IsValidation]

/-! ### Names of filters -/

theorem Entity.mem_fields_of_resolve? {name : String} {c : Column} (h : e.resolve? name = some c) :
    c ∈ e.fields := by
  rw [resolve?] at h
  split at h
  · exact List.mem_of_find?_eq_some h
  · cases h

theorem Entity.name_of_resolve? {name : String} {c : Column} (h : e.resolve? name = some c) :
    c.name = name := by
  rw [resolve?] at h
  split at h
  · have hname := List.find?_some h
    exact beq_iff_eq.mp hname
  · cases h

/-- A filter constrains nothing by a name that the entity does not allow, or does not have. -/
theorem Entity.resolve?_eq_none_iff {name : String} :
    e.resolve? name = none ↔ name ∉ e.filterable ∨ name ∉ e.fields.map Column.name := by
  rw [resolve?]
  by_cases hallowed : name ∈ e.filterable
  · simp [hallowed]
  · simp [hallowed]

/-- A filter that is retained constrains a field of the entity. -/
theorem Entity.column_mem_of_mem_retain {ps : List Predicate} {f : RetainedFilter}
    (h : f ∈ e.retain ps) : f.column ∈ e.fields := by
  rw [retain, List.mem_filterMap] at h
  obtain ⟨p, -, hp⟩ := h
  obtain ⟨c, hc, rfl⟩ := Option.map_eq_some_iff.mp hp
  exact mem_fields_of_resolve? hc

/-! ### Values of filters -/

/-- Filters are read one by one, and none is left out. -/
theorem exists_of_typedFilters_cons {f : RetainedFilter} {filters : List RetainedFilter}
    {typed : List TypedFilter} (h : typedFilters (f :: filters) = .ok typed) :
    ∃ v rest, Value.read? f.column.kind f.value = some v ∧ typedFilters filters = .ok rest ∧
      typed = ⟨f.column.name, f.op, v⟩ :: rest := by
  rw [typedFilters, RetainedFilter.typed] at h
  cases hread : Value.read? f.column.kind f.value with
  | none =>
    rw [hread] at h
    cases h
  | some v =>
    rw [hread] at h
    cases hrest : typedFilters filters with
    | error fault =>
      rw [hrest] at h
      cases h
    | ok rest =>
      rw [hrest] at h
      cases h
      exact ⟨v, rest, rfl, rfl, rfl⟩

/-- Reading the values of filters keeps their columns and operators. -/
theorem map_of_typedFilters {filters : List RetainedFilter} {typed : List TypedFilter}
    (h : typedFilters filters = .ok typed) :
    typed.map (fun f => (f.column, f.op)) = filters.map fun f => (f.column.name, f.op) := by
  induction filters generalizing typed with
  | nil =>
    cases h
    rfl
  | cons f filters ih =>
    obtain ⟨v, rest, -, hrest, rfl⟩ := exists_of_typedFilters_cons h
    rw [List.map_cons, List.map_cons, ih hrest]

/-- The value of a filter is none of its column's kind. -/
def RetainedFilter.isRefused (f : RetainedFilter) : Bool :=
  (Value.read? f.column.kind f.value).isNone

/-- The fault of a filter whose value cannot be read. -/
def RetainedFilter.refusal (f : RetainedFilter) : Fault :=
  .invalidFilter f.column.kind f.value f.column.name

/-- The fault of filters is that of the first one whose value cannot be read. -/
theorem typedFilters_eq_error_iff {filters : List RetainedFilter} {fault : Fault} :
    typedFilters filters = .error fault ↔
      ∃ f, filters.find? RetainedFilter.isRefused = some f ∧ fault = f.refusal := by
  induction filters with
  | nil => simp [typedFilters]
  | cons f filters ih =>
    rw [typedFilters, RetainedFilter.typed, List.find?_cons, RetainedFilter.isRefused]
    cases Value.read? f.column.kind f.value with
    | none => simp [RetainedFilter.refusal, eq_comm]
    | some v =>
      -- A value that can be read leaves it to the rest what the fault is.
      rw [Option.isNone_some, ← ih]
      cases typedFilters filters with
      | error fault' => rfl
      | ok typed => exact iff_of_false nofun nofun

/-- Values that cannot be read are the fault of the request. -/
theorem kind_of_typedFilters {filters : List RetainedFilter} {fault : Fault}
    (h : typedFilters filters = .error fault) : fault.kind = .validation := by
  obtain ⟨f, -, rfl⟩ := typedFilters_eq_error_iff.mp h
  rfl

/-- Filters can be read exactly when the value of each can. -/
theorem exists_typedFilters_iff {filters : List RetainedFilter} :
    (∃ typed, typedFilters filters = .ok typed) ↔
      ∀ f ∈ filters, (Value.read? f.column.kind f.value).isSome := by
  have hall : (∀ f ∈ filters, (Value.read? f.column.kind f.value).isSome) ↔
      filters.find? RetainedFilter.isRefused = none := by
    simp [List.find?_eq_none, RetainedFilter.isRefused, Option.ne_none_iff_isSome]
  rw [hall]
  cases htyped : typedFilters filters with
  | error fault =>
    obtain ⟨f, hf, -⟩ := typedFilters_eq_error_iff.mp htyped
    simp [hf]
  | ok typed =>
    refine iff_of_true ⟨typed, rfl⟩ (Option.eq_none_iff_forall_not_mem.mpr fun f hf => ?_)
    cases htyped.symm.trans (typedFilters_eq_error_iff.mpr ⟨f, hf, rfl⟩)

/-- Lists of filters that can be read are read one after the other. -/
theorem typedFilters_append {filters filters' : List RetainedFilter}
    {typed typed' : List TypedFilter} (h : typedFilters filters = .ok typed)
    (h' : typedFilters filters' = .ok typed') :
    typedFilters (filters ++ filters') = .ok (typed ++ typed') := by
  induction filters generalizing typed with
  | nil =>
    cases h
    exact h'
  | cons f filters ih =>
    obtain ⟨v, rest, hread, hrest, rfl⟩ := exists_of_typedFilters_cons h
    rw [List.cons_append, typedFilters, RetainedFilter.typed, hread, ih hrest]
    rfl

/-! ### Values of predicates -/

namespace Entity

/-- The predicate is on a column that a filter may name, and its value is none of that column's
kind. -/
def refuses (e : Entity) (p : Predicate) : Bool :=
  (e.resolve? p.field).any fun c => (Value.read? c.kind p.value).isNone

theorem refuses_eq_true_iff {p : Predicate} :
    e.refuses p = true ↔ ∃ c, e.resolve? p.field = some c ∧ Value.read? c.kind p.value = none := by
  simp [refuses, Option.any_eq_true]

/-- The first filter whose value cannot be read comes from the first predicate that has none. -/
theorem find?_retain (ps : List Predicate) :
    (e.retain ps).find? RetainedFilter.isRefused =
      (ps.find? e.refuses).bind fun p => (e.resolve? p.field).map fun c => ⟨c, p.op, p.value⟩ := by
  rw [retain, List.find?_filterMap]
  simp only [Option.any_map]
  rfl

end Entity

/-- The fault of a list of predicates is that of the first one whose value cannot be read. -/
theorem typedFilters_retain_eq_error_iff {ps : List Predicate} {fault : Fault} :
    typedFilters (e.retain ps) = .error fault ↔ ∃ p c, ps.find? e.refuses = some p ∧
      e.resolve? p.field = some c ∧ fault = .invalidFilter c.kind p.value p.field := by
  rw [typedFilters_eq_error_iff, e.find?_retain]
  constructor
  · rintro ⟨f, hf, rfl⟩
    obtain ⟨p, hp, hf⟩ := Option.bind_eq_some_iff.mp hf
    obtain ⟨c, hc, rfl⟩ := Option.map_eq_some_iff.mp hf
    exact ⟨p, c, hp, hc, by rw [RetainedFilter.refusal, e.name_of_resolve? hc]⟩
  · rintro ⟨p, c, hp, hc, rfl⟩
    refine ⟨⟨c, p.op, p.value⟩, by rw [hp, Option.bind_some, hc, Option.map_some], ?_⟩
    rw [RetainedFilter.refusal, e.name_of_resolve? hc]

/-- There is a fault exactly when there is a predicate whose value cannot be read. -/
theorem exists_typedFilters_retain_eq_error_iff {ps : List Predicate} :
    (∃ fault, typedFilters (e.retain ps) = .error fault) ↔ ∃ p ∈ ps, e.refuses p := by
  constructor
  · rintro ⟨fault, h⟩
    obtain ⟨p, -, hp, -⟩ := typedFilters_retain_eq_error_iff.mp h
    exact ⟨p, List.mem_of_find?_eq_some hp, List.find?_some hp⟩
  · intro h
    obtain ⟨p, hp⟩ := Option.isSome_iff_exists.mp (List.find?_isSome.mpr h)
    -- Some predicate is refused, so there is a first one; its fault is the one that is found.
    obtain ⟨c, hc, -⟩ := e.refuses_eq_true_iff.mp (List.find?_some hp)
    exact ⟨_, typedFilters_retain_eq_error_iff.mpr ⟨p, c, hp, hc, rfl⟩⟩

end ExchangeCatalog
