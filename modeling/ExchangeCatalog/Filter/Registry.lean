import ExchangeCatalog.Fault
import ExchangeCatalog.Filter.Predicate

/-!
# Filters of an entity

An entity says which fields a filter may name. A predicate on another field is dropped without a
fault; the value of one that is kept is read as a value of the column's kind only when the rows are
looked up, and then it must be one.

## Main definitions

* `Entity.resolve?` — the column that a filter's field names
* `Entity.retain` — the predicates that are kept, with their columns
* `RetainedFilter.typed` — a kept predicate with its value read
* `TypedFilter.accepts` — whether a row passes
-/

namespace ExchangeCatalog

/-- The column that a filter's field names, when the entity allows it and has it. -/
def Entity.resolve? (e : Entity) (field : String) : Option Column :=
  if field ∈ e.filterable then e.fields.find? fun c => c.name == field else none

/-- A predicate that was kept, with the column that it constrains. -/
structure RetainedFilter where
  column : Column
  op : Operator
  value : String
  deriving DecidableEq, Repr

/-- The predicates on fields that a filter may name, in order. -/
def Entity.retain (e : Entity) (ps : List Predicate) : List RetainedFilter :=
  ps.filterMap fun p => (e.resolve? p.field).map fun c => ⟨c, p.op, p.value⟩

/-- A filter with its value read. -/
structure TypedFilter where
  column : String
  op : Operator
  value : Value
  deriving DecidableEq

/-- The filter with its value read in the column's kind. -/
def RetainedFilter.typed (f : RetainedFilter) : Except Fault TypedFilter :=
  match Value.read? f.column.kind f.value with
  | some v => .ok ⟨f.column.name, f.op, v⟩
  | none => .error (.invalidFilter f.column.kind f.value f.column.name)

/-- All filters with their values read; the first that cannot be read is the fault. -/
def typedFilters : List RetainedFilter → Except Fault (List TypedFilter)
  | [] => .ok []
  | f :: fs =>
    match f.typed with
    -- The filters after the first fault are not read.
    | .error fault => .error fault
    | .ok t => (typedFilters fs).map fun ts => t :: ts

/-- Whether a row's value in the filter's column stands in the asked relation to the filter's
value. -/
def TypedFilter.accepts {e : Entity} (f : TypedFilter) (r : Row e) : Bool :=
  match (r.valueOf? f.column).bind fun v => v.compare? f.value with
  | some o => f.op.accepts o
  -- A value of another kind passes no filter, nor does a column that is not there.
  | none => false

/-- Whether a row passes every filter. -/
def passes {e : Entity} (fs : List TypedFilter) (r : Row e) : Bool := fs.all fun f => f.accepts r

end ExchangeCatalog
